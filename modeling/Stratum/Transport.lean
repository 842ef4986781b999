import Stratum.Noise.Initiator
import Stratum.Noise.Responder

/-!
# Transports

A transport is one end of a byte stream. What the peer sends arrives in pieces that have nothing to do
with messages; the transport receives piece by piece until it has what a message needs, and keeps what it
received beyond that for the next one. A receive that fails loses nothing: everything received stays in
the buffer.

The bytes of a message that is handed out are not dropped at once. A transport counts them, and drops them
when more is to be received, or all together when there are no others.

A handshake message travels behind its length in two bytes. After the handshake a connection carries
encrypted frames.
-/

namespace Stratum

/-- One end of a byte stream. -/
structure Transport where
  /-- Whether this end is open. -/
  isOpen : Bool := true
  /-- The bytes kept of those received. -/
  stored : Bytes := []
  /-- How many of them, from the first on, belong to messages handed out. -/
  start : Nat := 0
  /-- The pieces that have arrived and are not received yet. -/
  incoming : List Bytes := []
  /-- Whether nothing arrives any more. -/
  inputEnded : Bool := false
  /-- Whether the peer takes no more bytes. -/
  outputBroken : Bool := false
  /-- The bytes sent and not yet taken by the network. -/
  outgoing : Bytes := []
  /-- Whether nothing is sent any more. -/
  outputEnded : Bool := false
  deriving DecidableEq

/-- A step of a transport. It says what the transport is afterwards, also when it fails. -/
abbrev TransportM (α : Type) := EStateM Fault Transport α

namespace Transport

/-- The least number of bytes that one receive asks for. -/
def readChunk : Nat := 16384

/-- The bytes received that belong to no message handed out. -/
def buffer (t : Transport) : Bytes := t.stored.drop t.start

/-- The number of bytes received that belong to no message handed out. -/
def buffered (t : Transport) : Nat := t.stored.length - t.start

/-- Drops the bytes of messages handed out. -/
def compact (t : Transport) : Transport := { t with stored := t.buffer, start := 0 }

/-- Counts the next `n` bytes to a message handed out. If no others are left, all are dropped. -/
def advance (n : Nat) (t : Transport) : Transport :=
  if t.start + n = t.stored.length then { t with stored := [], start := 0 }
  else { t with start := t.start + n }

/-- The transport that takes over the socket and the buffer, and what stays behind, which is closed. -/
def handOver (t : Transport) : Transport × Transport :=
  (t, { isOpen := false })

/-- Closes this end and forgets what was received. -/
def close (t : Transport) : Transport := { t with isOpen := false, stored := [], start := 0 }

/-- Says that nothing is sent any more. Bytes can still be received. -/
def endOutput (t : Transport) : Transport := { t with outputEnded := true }

/-- Bytes arrive, so that one receive can take them together with those that arrived before. -/
def arrive (t : Transport) (bs : Bytes) : Transport :=
  { t with incoming := [t.incoming.flatten ++ bs] }

/-- The number of bytes that have arrived. -/
def arrived (t : Transport) : Nat := t.incoming.flatten.length

/-- The number of bytes that have arrived or are buffered. -/
def unread (t : Transport) : Nat := t.buffered + t.arrived

/-! ### Bytes -/

/-- Fails with a reason. -/
def fail {α : Type} (cause : TransportFault) : TransportM α := throw (.transport cause)

/-- Sends bytes. -/
def send (bs : Bytes) : TransportM Unit := do
  let t ← get
  if !t.isOpen then fail .sendClosed
  if t.outputBroken && !bs.isEmpty then fail .sendFailed
  set { t with outgoing := t.outgoing ++ bs }

/-- Receives pieces behind the stored bytes, until `n` of these are not handed out or nothing is left. Each
receive asks for the bytes missing, or for more if they are few; a piece that is longer is received in
part. -/
def receiveUpTo (n start : Nat) (stored : Bytes) : List Bytes → Bytes × List Bytes
  | [] => (stored, [])
  | piece :: pieces =>
    if n ≤ stored.length - start then (stored, piece :: pieces)
    else
      let want := max (n - (stored.length - start)) readChunk
      if piece.length ≤ want then receiveUpTo n start (stored ++ piece) pieces
      else (stored ++ piece.take want, piece.drop want :: pieces)

/-- Receives until the buffer holds `n` bytes. If it does not hold them already, the bytes of messages handed
out are dropped first. -/
def fill (n : Nat) : TransportM Unit := do
  let t ← get
  if !t.isOpen then fail .receiveClosed
  let t := if 0 < t.start ∧ t.buffered < n then t.compact else t
  let (stored, incoming) := receiveUpTo n t.start t.stored t.incoming
  let t := { t with stored, incoming }
  set t
  if t.buffered < n then
    fail (if t.inputEnded then .peerClosed else .receiveFailed)

/-- Takes bytes from the start of the buffer. -/
def consume (n : Nat) : TransportM Unit := modify (advance n)

/-! ### Handshake messages -/

/-- Sends a handshake message behind its length. -/
def sendHandshake (message : Bytes) : TransportM Unit := do
  if maxNoiseMessage < message.length then throw (.handshake .messageTooLarge)
  send (Bytes.ofNatLE 2 message.length ++ message)

/-- Receives a handshake message. -/
def receiveHandshake : TransportM Bytes := do
  fill 2
  let n := Bytes.toNatLE ((← get).buffer.take 2)
  fill (2 + n)
  let message := ((← get).buffer.drop 2).take n
  consume (2 + n)
  return message

end Transport

/-- A transport with a session: one end of an encrypted connection. -/
structure Connection where
  /-- The byte stream. -/
  transport : Transport
  /-- What encrypts it. -/
  session : Session
  deriving DecidableEq

/-- A step of a connection. It says what the connection is afterwards, also when it fails. -/
abbrev ConnectionM (α : Type) := EStateM Fault Connection α

namespace Connection

variable (S : Suite)

/-- A step of the transport. -/
abbrev onTransport {α : Type} (x : TransportM α) : ConnectionM α :=
  onPart (·.transport) (fun c transport => { c with transport }) x

/-- A step of the session. -/
abbrev onSession {α : Type} (x : SessionM α) : ConnectionM α :=
  onPart (·.session) (fun c session => { c with session }) x

/-- Encrypts a frame and sends it. -/
def sendFrame (f : Frame) : ConnectionM Unit := do
  let sealed ← onSession (Session.encrypt S f)
  onTransport (Transport.send sealed)

/-- Reads a frame from the buffer, and receives what is missing, at most `fuel` times. -/
def receiveFrameWithin : (fuel : Nat) → ConnectionM Frame
  | 0 => onTransport (Transport.fail .receiveFailed)
  | fuel + 1 => do
    match ← onSession (Session.read S (← get).transport.buffer) with
    | .frame f consumed =>
      onTransport (Transport.consume consumed)
      return f
    | .incomplete needed =>
      onTransport (Transport.fill ((← get).transport.buffered + needed))
      receiveFrameWithin fuel

/-- Receives a frame. Every receive that does not fail takes a byte that has arrived, so their number
bounds the number of tries. -/
def receiveFrame : ConnectionM Frame := do
  receiveFrameWithin S ((← get).transport.arrived + 2)

end Connection

end Stratum
