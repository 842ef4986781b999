import Stratum.Message.Record

/-!
# Opening, changing and closing channels

A miner opens a channel and names its hash rate and the greatest target it accepts; the pool grants the
channel with a target and an extranonce prefix, or refuses it.
-/

namespace Stratum

/-- Asks for a channel for header-only mining. -/
structure OpenStandardMiningChannel where
  /-- The number of the request. -/
  requestId : UInt32 := 0
  /-- Who mines. -/
  userIdentity : Text .upTo255 := default
  /-- The expected hash rate. -/
  nominalHashRate : Binary32 := default
  /-- The greatest target accepted. -/
  maxTarget : FixedBytes 32 := default

instance : Record OpenStandardMiningChannel where
  type := .openStandardMiningChannel
  layout := [.u32, .text .upTo255, .f32, .u256]
  fields m := (m.requestId, m.userIdentity, m.nominalHashRate, m.maxTarget, ())
  ofFields := fun (requestId, userIdentity, nominalHashRate, maxTarget, ()) =>
    { requestId, userIdentity, nominalHashRate, maxTarget }
  blank := {}

/-- Grants a standard channel. -/
structure OpenStandardMiningChannelSuccess where
  /-- The number of the request. -/
  requestId : UInt32 := 0
  /-- The new channel. -/
  channelId : UInt32 := 0
  /-- The first target. -/
  target : FixedBytes 32 := default
  /-- The bytes that the extranonce starts with. -/
  extranoncePrefix : ByteString .upTo32 := default
  /-- The group the channel is in. -/
  groupChannelId : UInt32 := 0

instance : Record OpenStandardMiningChannelSuccess where
  type := .openStandardMiningChannelSuccess
  layout := [.u32, .u32, .u256, .bytes .upTo32, .u32]
  fields m := (m.requestId, m.channelId, m.target, m.extranoncePrefix, m.groupChannelId, ())
  ofFields := fun (requestId, channelId, target, extranoncePrefix, groupChannelId, ()) =>
    { requestId, channelId, target, extranoncePrefix, groupChannelId }
  blank := {}

/-- Refuses a standard channel. -/
structure OpenStandardMiningChannelError where
  /-- The number of the request. -/
  requestId : UInt32 := 0
  /-- Why it is refused. -/
  errorCode : Text .upTo32 := default

instance : Record OpenStandardMiningChannelError where
  type := .openStandardMiningChannelError
  layout := [.u32, .text .upTo32]
  fields m := (m.requestId, m.errorCode, ())
  ofFields := fun (requestId, errorCode, ()) => { requestId, errorCode }
  blank := {}

/-- Asks for a channel with a searchable extranonce. -/
structure OpenExtendedMiningChannel where
  /-- The number of the request. -/
  requestId : UInt32 := 0
  /-- Who mines. -/
  userIdentity : Text .upTo255 := default
  /-- The expected hash rate. -/
  nominalHashRate : Binary32 := default
  /-- The greatest target accepted. -/
  maxTarget : FixedBytes 32 := default
  /-- The least number of extranonce bytes needed. -/
  minExtranonceSize : UInt16 := 0

instance : Record OpenExtendedMiningChannel where
  type := .openExtendedMiningChannel
  layout := [.u32, .text .upTo255, .f32, .u256, .u16]
  fields m := (m.requestId, m.userIdentity, m.nominalHashRate, m.maxTarget, m.minExtranonceSize, ())
  ofFields := fun (requestId, userIdentity, nominalHashRate, maxTarget, minExtranonceSize, ()) =>
    { requestId, userIdentity, nominalHashRate, maxTarget, minExtranonceSize }
  blank := {}

/-- Grants an extended channel. -/
structure OpenExtendedMiningChannelSuccess where
  /-- The number of the request. -/
  requestId : UInt32 := 0
  /-- The new channel. -/
  channelId : UInt32 := 0
  /-- The first target. -/
  target : FixedBytes 32 := default
  /-- The number of extranonce bytes the miner may search. -/
  extranonceSize : UInt16 := 0
  /-- The bytes that the extranonce starts with. -/
  extranoncePrefix : ByteString .upTo32 := default

instance : Record OpenExtendedMiningChannelSuccess where
  type := .openExtendedMiningChannelSuccess
  layout := [.u32, .u32, .u256, .u16, .bytes .upTo32]
  fields m := (m.requestId, m.channelId, m.target, m.extranonceSize, m.extranoncePrefix, ())
  ofFields := fun (requestId, channelId, target, extranonceSize, extranoncePrefix, ()) =>
    { requestId, channelId, target, extranonceSize, extranoncePrefix }
  blank := {}

/-- Refuses an extended channel. -/
structure OpenExtendedMiningChannelError where
  /-- The number of the request. -/
  requestId : UInt32 := 0
  /-- Why it is refused. -/
  errorCode : Text .upTo32 := default

instance : Record OpenExtendedMiningChannelError where
  type := .openExtendedMiningChannelError
  layout := [.u32, .text .upTo32]
  fields m := (m.requestId, m.errorCode, ())
  ofFields := fun (requestId, errorCode, ()) => { requestId, errorCode }
  blank := {}

/-- Announces a new hash rate or greatest target. -/
structure UpdateChannel where
  /-- The channel. -/
  channelId : UInt32 := 0
  /-- The expected hash rate. -/
  nominalHashRate : Binary32 := default
  /-- The greatest target accepted. -/
  maximumTarget : FixedBytes 32 := default

instance : Record UpdateChannel where
  type := .updateChannel
  layout := [.u32, .f32, .u256]
  fields m := (m.channelId, m.nominalHashRate, m.maximumTarget, ())
  ofFields := fun (channelId, nominalHashRate, maximumTarget, ()) =>
    { channelId, nominalHashRate, maximumTarget }
  blank := {}

/-- Refuses an update. -/
structure UpdateChannelError where
  /-- The channel. -/
  channelId : UInt32 := 0
  /-- Why it is refused. -/
  errorCode : Text .upTo32 := default

instance : Record UpdateChannelError where
  type := .updateChannelError
  layout := [.u32, .text .upTo32]
  fields m := (m.channelId, m.errorCode, ())
  ofFields := fun (channelId, errorCode, ()) => { channelId, errorCode }
  blank := {}

/-- Closes a channel. -/
structure CloseChannel where
  /-- The channel. -/
  channelId : UInt32 := 0
  /-- Why it is closed. -/
  reasonCode : Text .upTo32 := default

instance : Record CloseChannel where
  type := .closeChannel
  layout := [.u32, .text .upTo32]
  fields m := (m.channelId, m.reasonCode, ())
  ofFields := fun (channelId, reasonCode, ()) => { channelId, reasonCode }
  blank := {}

/-- Changes the extranonce prefix of a channel. -/
structure SetExtranoncePrefix where
  /-- The channel. -/
  channelId : UInt32 := 0
  /-- The bytes that the extranonce starts with. -/
  extranoncePrefix : ByteString .upTo32 := default

instance : Record SetExtranoncePrefix where
  type := .setExtranoncePrefix
  layout := [.u32, .bytes .upTo32]
  fields m := (m.channelId, m.extranoncePrefix, ())
  ofFields := fun (channelId, extranoncePrefix, ()) => { channelId, extranoncePrefix }
  blank := {}

/-- Sends the miner to another host. -/
structure Reconnect where
  /-- The host; the same if empty. -/
  newHost : Text .upTo255 := default
  /-- The port; the same if zero. -/
  newPort : UInt16 := 0

instance : Record Reconnect where
  type := .reconnect
  layout := [.text .upTo255, .u16]
  fields m := (m.newHost, m.newPort, ())
  ofFields := fun (newHost, newPort, ()) => { newHost, newPort }
  blank := {}

/-- Puts channels into a group. -/
structure SetGroupChannel where
  /-- The group. -/
  groupChannelId : UInt32 := 0
  /-- The channels. -/
  channelIds : Sequence UInt32 .upTo64K := default

instance : Record SetGroupChannel where
  type := .setGroupChannel
  layout := [.u32, .sequence .u32 .upTo64K]
  fields m := (m.groupChannelId, m.channelIds, ())
  ofFields := fun (groupChannelId, channelIds, ()) => { groupChannelId, channelIds }
  blank := {}

end Stratum
