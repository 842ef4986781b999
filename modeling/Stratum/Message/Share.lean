import Stratum.Message.Record

/-!
# Submitting shares

A miner submits the headers it found; the pool acknowledges them in bulk or refuses one.
-/

namespace Stratum

/-- A share on a standard channel. -/
structure SubmitSharesStandard where
  /-- The channel. -/
  channelId : UInt32 := 0
  /-- The number of the submission on the channel. -/
  sequenceNumber : UInt32 := 0
  /-- The job. -/
  jobId : UInt32 := 0
  /-- The nonce of the header. -/
  nonce : UInt32 := 0
  /-- The time of the header. -/
  ntime : UInt32 := 0
  /-- The version of the header. -/
  version : UInt32 := 0

instance : Record SubmitSharesStandard where
  type := .submitSharesStandard
  layout := [.u32, .u32, .u32, .u32, .u32, .u32]
  fields m := (m.channelId, m.sequenceNumber, m.jobId, m.nonce, m.ntime, m.version, ())
  ofFields := fun (channelId, sequenceNumber, jobId, nonce, ntime, version, ()) =>
    { channelId, sequenceNumber, jobId, nonce, ntime, version }
  blank := {}

/-- A share on an extended channel. -/
structure SubmitSharesExtended where
  /-- The channel. -/
  channelId : UInt32 := 0
  /-- The number of the submission on the channel. -/
  sequenceNumber : UInt32 := 0
  /-- The job. -/
  jobId : UInt32 := 0
  /-- The nonce of the header. -/
  nonce : UInt32 := 0
  /-- The time of the header. -/
  ntime : UInt32 := 0
  /-- The version of the header. -/
  version : UInt32 := 0
  /-- The extranonce the miner chose. -/
  extranonce : ByteString .upTo32 := default

instance : Record SubmitSharesExtended where
  type := .submitSharesExtended
  layout := [.u32, .u32, .u32, .u32, .u32, .u32, .bytes .upTo32]
  fields m := (m.channelId, m.sequenceNumber, m.jobId, m.nonce, m.ntime, m.version, m.extranonce, ())
  ofFields := fun (channelId, sequenceNumber, jobId, nonce, ntime, version, extranonce, ()) =>
    { channelId, sequenceNumber, jobId, nonce, ntime, version, extranonce }
  blank := {}

/-- Acknowledges shares. -/
structure SubmitSharesSuccess where
  /-- The channel. -/
  channelId : UInt32 := 0
  /-- The last submission acknowledged. -/
  lastSequenceNumber : UInt32 := 0
  /-- How many submissions are acknowledged. -/
  newSubmitsAcceptedCount : UInt32 := 0
  /-- The sum of their difficulties. -/
  newSharesSum : UInt64 := 0

instance : Record SubmitSharesSuccess where
  type := .submitSharesSuccess
  layout := [.u32, .u32, .u32, .u64]
  fields m := (m.channelId, m.lastSequenceNumber, m.newSubmitsAcceptedCount, m.newSharesSum, ())
  ofFields := fun (channelId, lastSequenceNumber, newSubmitsAcceptedCount, newSharesSum, ()) =>
    { channelId, lastSequenceNumber, newSubmitsAcceptedCount, newSharesSum }
  blank := {}

/-- Refuses a share. -/
structure SubmitSharesError where
  /-- The channel. -/
  channelId : UInt32 := 0
  /-- The number of the submission. -/
  sequenceNumber : UInt32 := 0
  /-- Why it is refused. -/
  errorCode : Text .upTo32 := default

instance : Record SubmitSharesError where
  type := .submitSharesError
  layout := [.u32, .u32, .text .upTo32]
  fields m := (m.channelId, m.sequenceNumber, m.errorCode, ())
  ofFields := fun (channelId, sequenceNumber, errorCode, ()) => { channelId, sequenceNumber, errorCode }
  blank := {}

end Stratum
