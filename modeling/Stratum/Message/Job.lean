import Stratum.Message.Record

/-!
# Jobs

The pool hands out jobs, previous block hashes and targets; a miner may propose a job of its own.
-/

namespace Stratum

/-- A job for a standard channel. -/
structure NewMiningJob where
  /-- The channel. -/
  channelId : UInt32 := 0
  /-- The job. -/
  jobId : UInt32 := 0
  /-- Whether it waits for the next previous block hash. -/
  futureJob : Bool := false
  /-- The version of the header. -/
  version : UInt32 := 0
  /-- The root of the transaction tree. -/
  merkleRoot : ByteString .upTo32 := default

instance : Record NewMiningJob where
  type := .newMiningJob
  layout := [.u32, .u32, .bool, .u32, .bytes .upTo32]
  fields m := (m.channelId, m.jobId, m.futureJob, m.version, m.merkleRoot, ())
  ofFields := fun (channelId, jobId, futureJob, version, merkleRoot, ()) =>
    { channelId, jobId, futureJob, version, merkleRoot }
  blank := {}

/-- A job for an extended channel. -/
structure NewExtendedMiningJob where
  /-- The channel. -/
  channelId : UInt32 := 0
  /-- The job. -/
  jobId : UInt32 := 0
  /-- Whether it waits for the next previous block hash. -/
  futureJob : Bool := false
  /-- The version of the header. -/
  version : UInt32 := 0
  /-- Whether the miner may change the version. -/
  versionRollingAllowed : Bool := false
  /-- The hashes beside the path to the coinbase transaction. -/
  merklePath : Sequence (FixedBytes 32) .upTo255 := default
  /-- The coinbase transaction before the extranonce. -/
  coinbaseTxPrefix : ByteString .upTo64K := default
  /-- The coinbase transaction behind the extranonce. -/
  coinbaseTxSuffix : ByteString .upTo64K := default

instance : Record NewExtendedMiningJob where
  type := .newExtendedMiningJob
  layout := [.u32, .u32, .bool, .u32, .bool, .sequence .u256 .upTo255, .bytes .upTo64K,
    .bytes .upTo64K]
  fields m := (m.channelId, m.jobId, m.futureJob, m.version, m.versionRollingAllowed, m.merklePath,
    m.coinbaseTxPrefix, m.coinbaseTxSuffix, ())
  ofFields := fun (channelId, jobId, futureJob, version, versionRollingAllowed, merklePath,
    coinbaseTxPrefix, coinbaseTxSuffix, ()) =>
    { channelId, jobId, futureJob, version, versionRollingAllowed, merklePath, coinbaseTxPrefix,
      coinbaseTxSuffix }
  blank := {}

/-- A new block to build on. -/
structure SetNewPrevHash where
  /-- The channel. -/
  channelId : UInt32 := 0
  /-- The job that builds on it. -/
  jobId : UInt32 := 0
  /-- The hash of the block. -/
  prevHash : FixedBytes 32 := default
  /-- The least time of a header. -/
  minNtime : UInt32 := 0
  /-- The encoded target of the network. -/
  nbits : UInt32 := 0

instance : Record SetNewPrevHash where
  type := .setNewPrevHash
  layout := [.u32, .u32, .u256, .u32, .u32]
  fields m := (m.channelId, m.jobId, m.prevHash, m.minNtime, m.nbits, ())
  ofFields := fun (channelId, jobId, prevHash, minNtime, nbits, ()) =>
    { channelId, jobId, prevHash, minNtime, nbits }
  blank := {}

/-- A new greatest target of a channel. -/
structure SetTarget where
  /-- The channel. -/
  channelId : UInt32 := 0
  /-- The target. -/
  maximumTarget : FixedBytes 32 := default

instance : Record SetTarget where
  type := .setTarget
  layout := [.u32, .u256]
  fields m := (m.channelId, m.maximumTarget, ())
  ofFields := fun (channelId, maximumTarget, ()) => { channelId, maximumTarget }
  blank := {}

/-- Asks to mine a job the miner built itself. -/
structure SetCustomMiningJob where
  /-- The channel. -/
  channelId : UInt32 := 0
  /-- The number of the request. -/
  requestId : UInt32 := 0
  /-- The token the job was negotiated under. -/
  miningJobToken : ByteString .upTo255 := default
  /-- The version of the header. -/
  version : UInt32 := 0
  /-- The hash of the block to build on. -/
  prevHash : FixedBytes 32 := default
  /-- The least time of a header. -/
  minNtime : UInt32 := 0
  /-- The encoded target of the network. -/
  nbits : UInt32 := 0
  /-- The version of the coinbase transaction. -/
  coinbaseTxVersion : UInt32 := 0
  /-- What the coinbase input starts with. -/
  coinbasePrefix : ByteString .upTo255 := default
  /-- The sequence number of the coinbase input. -/
  coinbaseTxInputNSequence : UInt32 := 0
  /-- The value left for the miner's outputs. -/
  coinbaseTxValueRemaining : UInt64 := 0
  /-- The outputs of the coinbase transaction. -/
  coinbaseTxOutputs : ByteString .upTo64K := default
  /-- The lock time of the coinbase transaction. -/
  coinbaseTxLocktime : UInt32 := 0
  /-- The hashes beside the path to the coinbase transaction. -/
  merklePath : Sequence (FixedBytes 32) .upTo255 := default
  /-- The number of extranonce bytes. -/
  extranonceSize : UInt16 := 0

instance : Record SetCustomMiningJob where
  type := .setCustomMiningJob
  layout := [.u32, .u32, .bytes .upTo255, .u32, .u256, .u32, .u32, .u32, .bytes .upTo255, .u32, .u64,
    .bytes .upTo64K, .u32, .sequence .u256 .upTo255, .u16]
  fields m := (m.channelId, m.requestId, m.miningJobToken, m.version, m.prevHash, m.minNtime, m.nbits,
    m.coinbaseTxVersion, m.coinbasePrefix, m.coinbaseTxInputNSequence, m.coinbaseTxValueRemaining,
    m.coinbaseTxOutputs, m.coinbaseTxLocktime, m.merklePath, m.extranonceSize, ())
  ofFields := fun (channelId, requestId, miningJobToken, version, prevHash, minNtime, nbits,
    coinbaseTxVersion, coinbasePrefix, coinbaseTxInputNSequence, coinbaseTxValueRemaining,
    coinbaseTxOutputs, coinbaseTxLocktime, merklePath, extranonceSize, ()) =>
    { channelId, requestId, miningJobToken, version, prevHash, minNtime, nbits, coinbaseTxVersion,
      coinbasePrefix, coinbaseTxInputNSequence, coinbaseTxValueRemaining, coinbaseTxOutputs,
      coinbaseTxLocktime, merklePath, extranonceSize }
  blank := {}

/-- Accepts a custom job. -/
structure SetCustomMiningJobSuccess where
  /-- The channel. -/
  channelId : UInt32 := 0
  /-- The number of the request. -/
  requestId : UInt32 := 0
  /-- The job. -/
  jobId : UInt32 := 0

instance : Record SetCustomMiningJobSuccess where
  type := .setCustomMiningJobSuccess
  layout := [.u32, .u32, .u32]
  fields m := (m.channelId, m.requestId, m.jobId, ())
  ofFields := fun (channelId, requestId, jobId, ()) => { channelId, requestId, jobId }
  blank := {}

/-- Refuses a custom job. -/
structure SetCustomMiningJobError where
  /-- The channel. -/
  channelId : UInt32 := 0
  /-- The number of the request. -/
  requestId : UInt32 := 0
  /-- Why it is refused. -/
  errorCode : Text .upTo255 := default

instance : Record SetCustomMiningJobError where
  type := .setCustomMiningJobError
  layout := [.u32, .u32, .text .upTo255]
  fields m := (m.channelId, m.requestId, m.errorCode, ())
  ofFields := fun (channelId, requestId, errorCode, ()) => { channelId, requestId, errorCode }
  blank := {}

end Stratum
