import Stratum.Dialogue
import Stratum.KeyFile
import Stratum.Message.Dispatch

/-!
# A miner

A miner connects to a pool, checks in the handshake that the pool is certified by the authority it trusts,
sets up the connection, and opens one standard channel. It takes any answer that is not malformed, and
ends when it has the second one.
-/

namespace Stratum.Miner

/-! ### The command line -/

/-- How the program is used. -/
def usage : String :=
  "Usage:\n"
    ++ "  sv2-miner <host> <port> <authority_pub_file> <user_identity>\n\n"
    ++ "Connects, verifies the pool certificate against the authority key,\n"
    ++ "sends SetupConnection and OpenStandardMiningChannel and logs the replies.\n\n"
    ++ "Example:\n"
    ++ "  sv2-miner 127.0.0.1 3336 authority-key.pub worker1\n"

/-- The settings that four arguments give. -/
def configOf (host port authorityPath userIdentity : Bytes) : Except Fault MinerConfig := do
  let port ← parsePort port
  let config : MinerConfig := { host, port, authorityPath, userIdentity }
  config.validate
  return config

/-! ### Requests -/

/-- A text of a request. -/
def requestText {b : LengthBound} (bs : Bytes) : Except Fault (Text b) :=
  (Text.ofBytes bs).mapError .codec

/-- The set-up of the connection. -/
def setupRequest (c : MinerConfig) : Except Fault Message := do
  let endpointHost ← requestText c.host
  let setup : SetupConnection :=
    { protocol := Subprotocol.mining.code
      flags := SetupFlags.requiresStandardJobs
      endpointHost
      endpointPort := c.port
      vendor := .ofString "sv2"
      hardwareVersion := .ofString "generic"
      firmware := .ofString "sv2-miner" }
  return ⟨.setupConnection, setup⟩

/-- The request for a channel. Every target will do. -/
def channelRequest (c : MinerConfig) : Except Fault Message := do
  let userIdentity ← requestText c.userIdentity
  let request : OpenStandardMiningChannel :=
    { requestId := 1
      userIdentity
      nominalHashRate := c.hashRate
      maxTarget := .replicate 32 0xFF }
  return ⟨.openStandardMiningChannel, request⟩

/-! ### Starting -/

/-- What starting a miner leads to. -/
inductive Start where
  /-- The miner ends at once. -/
  | ended (outcome : Outcome)
  /-- The miner connects, and will trust an authority. -/
  | ready (config : MinerConfig) (authority : Key)

/-- The settings and the trusted key that four arguments give. -/
def start (host port authorityPath userIdentity : Bytes) (files : FileStore) :
    Except Fault (MinerConfig × Key) := do
  let config ← configOf host port authorityPath userIdentity
  let authority ← KeyFile.load config.authorityPath files
  return (config, authority)

/-- Starts a miner with the arguments of its command line. -/
def launch (args : List Bytes) (files : FileStore) : Start :=
  match args with
  | [host, port, authorityPath, userIdentity] =>
    match start host port authorityPath userIdentity files with
    | .ok (config, authority) => .ready config authority
    | .error _ => .ended { exit := 1 }
  | _ => .ended (.usage usage)

/-! ### Talking to the pool -/

/-- How far a connection has come. -/
inductive Phase where
  /-- Nothing is sent. -/
  | connected (initiator : Initiator)
  /-- Message 1 is sent. -/
  | handshake (initiator : Initiator)
  /-- The set-up is sent. -/
  | settingUp (session : Session)
  /-- The request for a channel is sent. -/
  | opening (session : Session)
  deriving DecidableEq

/-- A miner with its connection. -/
structure Client where
  /-- The settings. -/
  config : MinerConfig
  /-- The byte stream. -/
  transport : Transport
  /-- How far the connection has come. -/
  phase : Phase
  /-- The random bytes to come. -/
  entropy : Entropy

namespace Client

/-- A miner that has just connected. -/
def make (config : MinerConfig) (authority : Key) (now : UInt32) (entropy : Entropy) : Client :=
  { config, transport := {}, phase := .connected { authority, clock := now, phase := .uninitialized },
    entropy }

/-- A step of the transport. -/
abbrev onTransport {α : Type} (x : TransportM α) : EStateM Fault Client α :=
  onPart (·.transport) (fun s transport => { s with transport }) x

/-- A step of the encrypted connection, in a phase that has a session. -/
def onConnection {α : Type} (phase : Session → Phase) (session : Session) (x : ConnectionM α) :
    EStateM Fault Client (α × Session) := fun s =>
  match x ⟨s.transport, session⟩ with
  | .ok a c => .ok (a, c.session) { s with transport := c.transport, phase := phase c.session }
  | .error e c => .error e { s with transport := c.transport, phase := phase c.session }

/-- A result that may be a fault. -/
def orStop {α : Type} (x : Except Fault α) : EStateM Fault Client α := MonadExcept.ofExcept x

/-- Sends message 1. -/
def sendFirst (S : Suite) (initiator : Initiator) : EStateM Fault Client Unit := do
  let (message, initiator, entropy) := initiator.writeFirstMessage S [] (← get).entropy
  modify fun s => { s with entropy, phase := .handshake initiator }
  onTransport (Transport.sendHandshake (← orStop message))

/-- Sends a request in an encrypted frame. -/
def request (S : Suite) (phase : Session → Phase) (session : Session)
    (message : MinerConfig → Except Fault Message) : EStateM Fault Client Unit := do
  let m ← orStop (message (← get).config)
  let f ← orStop m.toFrame
  discard (onConnection phase session (Connection.sendFrame S f))

/-- Reads message 2, has a session, and sets up the connection. -/
def shakeHands (S : Suite) (initiator : Initiator) : EStateM Fault Client Unit := do
  let second ← onTransport Transport.receiveHandshake
  let (result, initiator) := initiator.readSecondMessage S second
  orStop result
  let session ← orStop (initiator.intoSession (← get).config.session).1
  request S .settingUp session setupRequest

/-- Receives an answer. -/
def receiveReply (S : Suite) (phase : Session → Phase) (session : Session) :
    EStateM Fault Client Session := do
  let (f, session) ← onConnection phase session (Connection.receiveFrame S)
  discard (orStop f.decodeMessage)
  return session

/-- Sends what is to be sent, or receives what is awaited. -/
def turn (S : Suite) : EStateM Fault Client Bool := do
  match (← get).phase with
  | .connected initiator =>
    sendFirst S initiator
    return true
  | .handshake initiator =>
    shakeHands S initiator
    return true
  | .settingUp session =>
    let session ← receiveReply S .settingUp session
    request S .opening session channelRequest
    return true
  | .opening session =>
    discard (receiveReply S .opening session)
    modify fun s => { s with transport := s.transport.close }
    return false

/-- Goes on as far as what has arrived allows. There are four turns at most. -/
def run (S : Suite) (s : Client) : Progress × Client := takeTurns (turn S) 4 s

/-- The miner as a program. -/
def program (S : Suite) : Program Client where
  transport s := s.transport
  withTransport s transport := { s with transport }
  run := run S

/-- The exit status, once the miner has ended. -/
def exit? : Progress → Option UInt8
  | .waiting => none
  | .finished => some 0
  | .stopped _ => some 1

end Client

end Stratum.Miner
