import Stratum.Entropy
import Stratum.Message.Dispatch

/-!
# What a pool answers

A pool answers the set-up of a connection and, once a set-up is accepted, the requests to open a channel.
It takes every user that has a name, and gives every channel a random number and a random prefix. All
other messages are received without an answer, and malformed frames are dropped.

Whether a set-up is accepted is one bit, which only an answer to a set-up changes.
-/

namespace Stratum.Pool

/-! ### Set-up -/

/-- The features that a pool offers. -/
def offeredFlags : UInt32 := SetupFlags.requiresStandardJobs ||| SetupFlags.requiresVersionRolling

/-- The refusal of a subprotocol other than mining. -/
def protocolRefusal : SetupConnectionError := { errorCode := .ofString ErrorCode.unsupportedProtocol }

/-- Accepts a set-up for mining, in the version that the pool speaks, with features that it offers. -/
def answerSetup (m : SetupConnection) : Except SetupConnectionError SetupConnectionSuccess :=
  if m.protocol ≠ Subprotocol.mining.code then .error protocolRefusal
  else if protocolVersion < m.minVersion ∨ m.maxVersion < protocolVersion then
    .error { errorCode := .ofString ErrorCode.protocolVersionMismatch }
  else
    let unsupported := m.flags &&& ~~~offeredFlags
    if unsupported ≠ 0 then
      .error { flags := unsupported, errorCode := .ofString ErrorCode.unsupportedFeatureFlags }
    else .ok {}

/-! ### Channels -/

/-- The number of bytes of an extranonce prefix. -/
def prefixLength : Nat := 4

/-- A random extranonce prefix. -/
def newPrefix : Random (ByteString .upTo32) := do
  let bs ← Random.bytes prefixLength
  match ByteString.ofBytes bs with
  | .ok p => return p
  | .error cause => throw (.codec cause)

/-- The answer to a request for a standard channel. -/
def openStandard (m : OpenStandardMiningChannel) : Random Message := do
  if m.userIdentity.toBytes.isEmpty then
    let refusal : OpenStandardMiningChannelError :=
      { requestId := m.requestId, errorCode := .ofString ErrorCode.unknownUser }
    return ⟨.openStandardMiningChannelError, refusal⟩
  let channelId ← Random.word
  let extranoncePrefix ← newPrefix
  let success : OpenStandardMiningChannelSuccess :=
    { requestId := m.requestId, channelId, target := m.maxTarget, extranoncePrefix }
  return ⟨.openStandardMiningChannelSuccess, success⟩

/-- The answer to a request for an extended channel. Its extranonces have the least size asked for. -/
def openExtended (m : OpenExtendedMiningChannel) : Random Message := do
  if m.userIdentity.toBytes.isEmpty then
    let refusal : OpenExtendedMiningChannelError :=
      { requestId := m.requestId, errorCode := .ofString ErrorCode.unknownUser }
    return ⟨.openExtendedMiningChannelError, refusal⟩
  let channelId ← Random.word
  let extranoncePrefix ← newPrefix
  let success : OpenExtendedMiningChannelSuccess :=
    { requestId := m.requestId, channelId, target := m.maxTarget, extranonceSize := m.minExtranonceSize,
      extranoncePrefix }
  return ⟨.openExtendedMiningChannelSuccess, success⟩

/-! ### Messages and frames -/

/-- The answer to a message, if there is one, and whether a set-up is accepted afterwards. -/
def answer (accepted : Bool) (m : Message) : Random (Option Message × Bool) :=
  match m with
  | ⟨.setupConnection, (m : SetupConnection)⟩ =>
    match answerSetup m with
    | .ok success => return (some ⟨.setupConnectionSuccess, success⟩, true)
    | .error refusal => return (some ⟨.setupConnectionError, refusal⟩, false)
  | ⟨.openStandardMiningChannel, (m : OpenStandardMiningChannel)⟩ =>
    if accepted then return (some (← openStandard m), accepted) else return (none, accepted)
  | ⟨.openExtendedMiningChannel, (m : OpenExtendedMiningChannel)⟩ =>
    if accepted then return (some (← openExtended m), accepted) else return (none, accepted)
  | _ => return (none, accepted)

/-- The frame of an answer that is known to be well formed, or the reason why it is not. -/
def frameOf (m : Message) : Random Frame :=
  MonadExcept.ofExcept m.toFrame

/-- Passes over a fault of a message: it gives no answer. Every other fault counts. -/
def dropMalformed (accepted : Bool) (cause : Fault) : Random (Option Frame × Bool) :=
  if cause.kind = .malformedMessage then return (none, accepted) else throw cause

/-- The answer to a frame, if there is one, and whether a set-up is accepted afterwards. A set-up for a
subprotocol without a name is refused although it is malformed. -/
def answerFrame (accepted : Bool) (f : Frame) : Random (Option Frame × Bool) :=
  if f.hasUnknownProtocol then
    return (some (← frameOf ⟨.setupConnectionError, protocolRefusal⟩), accepted)
  else
    match f.decodeMessage with
    | .error cause => dropMalformed accepted cause
    | .ok (.unsupported _ _ _) => return (none, accepted)
    | .ok (.message m) => do
      match ← answer accepted m with
      | (none, accepted) => return (none, accepted)
      | (some reply, accepted) =>
        match reply.toFrame with
        | .ok f => return (some f, accepted)
        | .error cause => dropMalformed accepted cause

end Stratum.Pool
