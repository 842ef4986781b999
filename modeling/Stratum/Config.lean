import Stratum.Fault
import Stratum.Text.Decimal
import Stratum.Wire.Value

/-!
# Configuration

The settings of a frame reader, a session, a certificate, a pool and a miner, with the values they have
when nothing is said, and the checks that each has to pass. Texts are byte strings, as a command line
gives them.
-/

namespace Stratum

/-- The greatest payload a frame can have: its length is written in three bytes. -/
def maxPayloadLength : Nat := 0xFFFFFF

/-- The cap on the payloads of a frame reader. -/
structure FrameLimits where
  /-- The greatest payload accepted. -/
  maxPayload : UInt32 := 0xFFFFFF
  deriving DecidableEq, Repr

/-- The settings of a session. -/
structure SessionConfig where
  /-- The greatest payload sent or accepted. -/
  maxPayload : UInt32 := 0xFFFFFF
  /-- After how many pieces each direction changes its key; never if zero. -/
  rekeyInterval : UInt64 := 0
  deriving DecidableEq, Repr

/-- The settings of a certificate. -/
structure CertificateConfig where
  /-- The version of the certificate. -/
  version : UInt16 := 0
  /-- For how many seconds it is valid: a day. -/
  validity : UInt32 := 86400
  deriving DecidableEq, Repr

/-- The settings of a pool. -/
structure PoolConfig where
  /-- The address to listen on: any. -/
  bindHost : Bytes := Utf8.ofString "0.0.0.0"
  /-- The port to listen on. -/
  port : UInt16 := 3336
  /-- The directory of the key files. -/
  keysDir : Bytes := []
  /-- The certificate it issues. -/
  certificate : CertificateConfig := {}
  /-- The session of a connection. -/
  session : SessionConfig := {}

/-- The settings of a miner. -/
structure MinerConfig where
  /-- The host to connect to. -/
  host : Bytes := []
  /-- The port to connect to. -/
  port : UInt16 := 3336
  /-- The file that holds the authority's public key. -/
  authorityPath : Bytes := []
  /-- The name the miner works under. -/
  userIdentity : Bytes := []
  /-- The announced hash rate: `1.0e12`. -/
  hashRate : Binary32 := ⟨1399379109⟩
  /-- The session of the connection. -/
  session : SessionConfig := {}

/-- Fails with a reason unless a condition holds. -/
def ConfigFault.unless (cause : ConfigFault) (ok : Bool) : Except Fault Unit :=
  if ok then .ok () else .error (.config cause)

/-- Whether a payload cap allows some payload and no more than a frame can have. -/
def isPayloadCap (cap : UInt32) : Bool := 1 ≤ cap && cap ≤ 0xFFFFFF

/-- Checks a cap on payloads. -/
def FrameLimits.validate (c : FrameLimits) : Except Fault Unit :=
  ConfigFault.frameCap.unless (isPayloadCap c.maxPayload)

/-- Checks the settings of a session. -/
def SessionConfig.validate (c : SessionConfig) : Except Fault Unit :=
  ConfigFault.sessionCap.unless (isPayloadCap c.maxPayload)

/-- Checks the settings of a certificate. -/
def CertificateConfig.validate (c : CertificateConfig) : Except Fault Unit :=
  ConfigFault.validityZero.unless (c.validity != 0)

/-- Checks the settings of a pool; the first fault counts. -/
def PoolConfig.validate (c : PoolConfig) : Except Fault Unit := do
  ConfigFault.bindHostEmpty.unless !c.bindHost.isEmpty
  ConfigFault.portZero.unless (c.port != 0)
  ConfigFault.keysDirEmpty.unless !c.keysDir.isEmpty
  c.certificate.validate
  c.session.validate

/-- Checks the settings of a miner; the first fault counts. -/
def MinerConfig.validate (c : MinerConfig) : Except Fault Unit := do
  ConfigFault.hostEmpty.unless !c.host.isEmpty
  ConfigFault.portZero.unless (c.port != 0)
  ConfigFault.authorityPathEmpty.unless !c.authorityPath.isEmpty
  ConfigFault.userIdentityLength.unless (!c.userIdentity.isEmpty && c.userIdentity.length ≤ 255)
  ConfigFault.hashRate.unless (c.hashRate.isFinite && c.hashRate.isNonNegative)
  c.session.validate

/-- A number from 1 to `max`, given by its digits. -/
def parsePositive (cause : ConfigFault) (max : Nat) (text : Bytes) : Except Fault Nat :=
  match Decimal.parse? text with
  | some v => if 1 ≤ v ∧ v ≤ max then .ok v else .error (.config cause)
  | none => .error (.config cause)

/-- A port on the command line. -/
def parsePort (text : Bytes) : Except Fault UInt16 :=
  return UInt16.ofNat (← parsePositive .portText 65535 text)

/-- A validity in seconds on the command line. -/
def parseValidity (text : Bytes) : Except Fault UInt32 :=
  return UInt32.ofNat (← parsePositive .validityText 4294967295 text)

end Stratum
