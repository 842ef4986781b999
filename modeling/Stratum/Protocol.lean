/-!
# Protocol constants

The numbers and short texts that both ends of a connection agree on: the negotiated version, the
subprotocols, the feature flags of a connection set-up, and the error codes that a refusal carries.
-/

namespace Stratum

/-- The protocol version that a connection set-up negotiates. -/
def protocolVersion : UInt16 := 2

/-- The subprotocol that a connection is opened for. -/
inductive Subprotocol where
  /-- Work distribution to miners. -/
  | mining
  /-- Negotiation of the transactions of a block. -/
  | jobNegotiation
  /-- Distribution of block templates. -/
  | templateDistribution
  /-- Distribution of negotiated jobs. -/
  | jobDistribution
  deriving DecidableEq, Repr

namespace Subprotocol

/-- The code of a subprotocol in a connection set-up. -/
def code : Subprotocol → UInt8
  | mining => 0
  | jobNegotiation => 1
  | templateDistribution => 2
  | jobDistribution => 3

/-- The subprotocol with a given code. -/
def ofCode? (code : UInt8) : Option Subprotocol :=
  [mining, jobNegotiation, templateDistribution, jobDistribution].find? fun p => p.code == code

/-- The name of a subprotocol. -/
def name : Subprotocol → String
  | mining => "Mining"
  | jobNegotiation => "JobNegotiation"
  | templateDistribution => "TemplateDistribution"
  | jobDistribution => "JobDistribution"

/-- The name for a code, also one that no subprotocol has. -/
def nameOfCode (code : UInt8) : String := (ofCode? code).elim "Unknown" name

/-- Whether a code names a subprotocol. -/
def isKnown (code : UInt8) : Bool := code ≤ jobDistribution.code

end Subprotocol

/-! ### Feature flags -/

namespace SetupFlags

/-- The miner takes standard jobs only. -/
def requiresStandardJobs : UInt32 := 1

/-- The miner sends work of its own. -/
def requiresWorkSelection : UInt32 := 2

/-- The miner rolls the version field. -/
def requiresVersionRolling : UInt32 := 4

/-- A job negotiator takes asynchronous jobs. -/
def requiresAsyncJobMining : UInt32 := 1

end SetupFlags

namespace SuccessFlags

/-- The pool does not accept a rolled version field. -/
def requiresFixedVersion : UInt32 := 1

/-- The pool does not accept standard channels. -/
def requiresExtendedChannels : UInt32 := 2

end SuccessFlags

/-! ### Error codes -/

namespace ErrorCode

/-- Some requested features are not supported. -/
def unsupportedFeatureFlags : String := "unsupported-feature-flags"

/-- The subprotocol is not supported. -/
def unsupportedProtocol : String := "unsupported-protocol"

/-- No common version. -/
def protocolVersionMismatch : String := "protocol-version-mismatch"

/-- The user identity is not known. -/
def unknownUser : String := "unknown-user"

/-- The requested target cannot be met. -/
def maxTargetOutOfRange : String := "max-target-out-of-range"

/-- There is no such channel. -/
def invalidChannelId : String := "invalid-channel-id"

/-- There is no such job. -/
def invalidJobId : String := "invalid-job-id"

/-- The share comes too late. -/
def staleShare : String := "stale-share"

/-- The share misses the target. -/
def difficultyTooLow : String := "difficulty-too-low"

/-- All error codes, those of a set-up first. -/
def all : List String :=
  [unsupportedFeatureFlags, unsupportedProtocol, protocolVersionMismatch, unknownUser,
   maxTargetOutOfRange, invalidChannelId, invalidJobId, staleShare, difficultyTooLow]

end ErrorCode

end Stratum
