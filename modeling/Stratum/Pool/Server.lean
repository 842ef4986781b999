import Stratum.Dialogue
import Stratum.KeyFile
import Stratum.Pool.Reply

/-!
# A pool

A pool has the authority's secret key and a static key pair of its own in its key directory; the pair is
made when the pool starts for the first time. It certifies its static key, waits for one connection,
accepts the handshake, and answers frame after frame until the connection ends.
-/

namespace Stratum.Pool

/-! ### The command line -/

/-- How the program is used. -/
def usage : String :=
  "Usage: sv2-pool <bind_host> <port> <keys_dir> [validity_secs]\n"
    ++ "Where keys_dir contains:\n"
    ++ "  authority-key.priv   (from sv2-keygen authority)\n"
    ++ "  static-key.priv      (created when missing)\n\n"
    ++ "Example:\n"
    ++ "  sv2-pool 0.0.0.0 3336 pool_keys 86400\n"

/-- The settings that three or four arguments give. -/
def configOf (bindHost port keysDir : Bytes) (validity : Option Bytes) : Except Fault PoolConfig := do
  let port ← parsePort port
  let certificate ← match validity with
    | some text => do pure { validity := ← parseValidity text : CertificateConfig }
    | none => pure {}
  let config : PoolConfig := { bindHost, port, keysDir, certificate }
  config.validate
  return config

/-! ### Starting -/

/-- The file of the authority's secret key. -/
def authorityPath (c : PoolConfig) : Path := Path.join c.keysDir "authority-key.priv"

/-- The file of the pool's secret key. -/
def staticPath (c : PoolConfig) : Path := Path.join c.keysDir "static-key.priv"

/-- The file of the pool's public key. -/
def staticPublicPath (c : PoolConfig) : Path := Path.join c.keysDir "static-key.pub"

/-- The files that a pool reads or writes. -/
def keyFiles (c : PoolConfig) : List Path := [authorityPath c, staticPath c, staticPublicPath c]

/-- The pool's key pair: the one in its file, or a new one if there is no such file. -/
def staticKeys (S : Suite) (c : PoolConfig) : HostM KeyPair := do
  if ((← get).files.find? (staticPath c)).isSome then
    let key ← Host.reading (KeyFile.load (staticPath c))
    match KeyPair.ofStaticBytes S key.toBytes with
    | .ok pair => return pair
    | .error cause => throw cause
  else
    let pair ← Host.drawing (KeyPair.generate S)
    Host.writing (KeyFile.saveSecret (staticPath c) pair.privateKey.toBytes)
    Host.writing (KeyFile.save (staticPublicPath c) pair.publicKey.toBytes)
    return pair

/-- A pool that is ready for a connection, with the certificate of its key. -/
def start (S : Suite) (c : PoolConfig) (now : UInt32) : HostM Responder := do
  let key ← Host.reading (KeyFile.load (authorityPath c))
  let pair ← staticKeys S c
  match CertificateMessage.issue S (.ofPrivate S key) pair.publicKey c.certificate now with
  | .ok certificate => return { staticKeys := pair, certificate, phase := .awaitingFirstMessage }
  | .error cause => throw cause

/-- What starting a pool leads to. -/
inductive Start where
  /-- The pool ends at once. -/
  | ended (outcome : Outcome)
  /-- The pool waits for a connection. -/
  | ready (config : PoolConfig) (responder : Responder)

/-- The exit status after a fault: a connection that ends is the regular end. -/
def exitStatus (cause : Fault) : UInt8 := if cause.kind = .ioError then 0 else 1

/-- Starts a pool on settings that may be wrong. -/
def startWith (S : Suite) (config : Except Fault PoolConfig) (now : UInt32) (host : Host) : Start × Host :=
  match config with
  | .error cause => (.ended { exit := exitStatus cause }, host)
  | .ok config =>
    match start S config now host with
    | .ok responder host => (.ready config responder, host)
    | .error cause host => (.ended { exit := exitStatus cause }, host)

/-- Starts a pool with the arguments of its command line. -/
def launch (S : Suite) (args : List Bytes) (now : UInt32) (host : Host) : Start × Host :=
  match args with
  | [bindHost, port, keysDir] => startWith S (configOf bindHost port keysDir none) now host
  | [bindHost, port, keysDir, validity] =>
    startWith S (configOf bindHost port keysDir (some validity)) now host
  | _ => (.ended (.usage usage), host)

/-! ### Serving a connection -/

/-- How far a connection has come. -/
inductive Phase where
  /-- The pool awaits message 1. -/
  | handshake (responder : Responder)
  /-- The pool answers frames; the bit says whether a set-up is accepted. -/
  | serving (session : Session) (accepted : Bool)
  deriving DecidableEq

/-- A pool with its connection. -/
structure Server where
  /-- The settings of sessions. -/
  config : SessionConfig
  /-- The byte stream. -/
  transport : Transport
  /-- How far the connection has come. -/
  phase : Phase
  /-- The random bytes to come. -/
  entropy : Entropy
  deriving DecidableEq

namespace Server

/-- A pool that has just accepted a connection. -/
def make (config : PoolConfig) (responder : Responder) (entropy : Entropy) : Server :=
  { config := config.session, transport := {}, phase := .handshake responder, entropy }

/-- A step of the transport. -/
abbrev onTransport {α : Type} (x : TransportM α) : EStateM Fault Server α :=
  onPart (·.transport) (fun s transport => { s with transport }) x

/-- Draws random bytes. -/
abbrev drawing {α : Type} (x : Random α) : EStateM Fault Server α :=
  onPart (·.entropy) (fun s entropy => { s with entropy }) x

/-- A step of the encrypted connection. -/
def onConnection {α : Type} (session : Session) (accepted : Bool) (x : ConnectionM α) :
    EStateM Fault Server (α × Session) := fun s =>
  match x ⟨s.transport, session⟩ with
  | .ok a c => .ok (a, c.session) { s with transport := c.transport, phase := .serving c.session accepted }
  | .error e c => .error e { s with transport := c.transport, phase := .serving c.session accepted }

/-- Answers message 1 and has a session. -/
def shakeHands (S : Suite) (responder : Responder) : EStateM Fault Server Unit := do
  let first ← onTransport Transport.receiveHandshake
  let (second, phase) ← drawing (Responder.answer S responder.staticKeys responder.certificate first)
  onTransport (Transport.sendHandshake second)
  match ({ responder with phase }.intoSession (← get).config).1 with
  | .ok session => modify fun s => { s with phase := .serving session false }
  | .error cause => throw cause

/-- Answers one frame. -/
def serve (S : Suite) (session : Session) (accepted : Bool) : EStateM Fault Server Unit := do
  let (f, session) ← onConnection session accepted (Connection.receiveFrame S)
  let (reply, accepted) ← drawing (answerFrame accepted f)
  modify fun s => { s with phase := .serving session accepted }
  match reply with
  | some reply => discard (onConnection session accepted (Connection.sendFrame S reply))
  | none => return ()

/-- Answers message 1 or a frame. -/
def turn (S : Suite) : EStateM Fault Server Bool := do
  match (← get).phase with
  | .handshake responder => shakeHands S responder
  | .serving session accepted => serve S session accepted
  return true

/-- Answers everything that has arrived. Every turn takes at least two bytes, so their number bounds the
number of turns. -/
def run (S : Suite) (s : Server) : Progress × Server :=
  takeTurns (turn S) (s.transport.unread + 1) s

/-- The pool as a program. -/
def program (S : Suite) : Program Server where
  transport s := s.transport
  withTransport s transport := { s with transport }
  run := run S

/-- The exit status, once the pool has ended. -/
def exit? : Progress → Option UInt8
  | .waiting => none
  | .finished => some 0
  | .stopped cause => some (exitStatus cause)

end Server

end Stratum.Pool
