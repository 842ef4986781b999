import Stratum.Message.Record
import Stratum.Protocol

/-!
# Setting up a connection

The messages of the Common protocol: the client states what it speaks, and the server accepts or refuses.
Two of them obey a rule beyond their formats.
-/

namespace Stratum

/-- The client opens the connection. -/
structure SetupConnection where
  /-- The code of the subprotocol. -/
  protocol : UInt8 := 0
  /-- The oldest version it speaks. -/
  minVersion : UInt16 := protocolVersion
  /-- The newest version it speaks. -/
  maxVersion : UInt16 := protocolVersion
  /-- The features it requires. -/
  flags : UInt32 := 0
  /-- The host it connects to. -/
  endpointHost : Text .upTo255 := default
  /-- The port it connects to. -/
  endpointPort : UInt16 := 0
  /-- Who made the device. -/
  vendor : Text .upTo255 := default
  /-- The version of the hardware. -/
  hardwareVersion : Text .upTo255 := default
  /-- The version of the firmware. -/
  firmware : Text .upTo255 := default
  /-- The name of the device. -/
  deviceId : Text .upTo255 := default

/-- The subprotocol is known, the versions are a range from 2 on, and vendor and firmware are named. -/
def SetupConnection.validate (m : SetupConnection) : Except MessageFault Unit := do
  MessageFault.unknownProtocol.rejectIf !(Subprotocol.isKnown m.protocol)
  MessageFault.minVersionTooLow.rejectIf (m.minVersion < protocolVersion)
  MessageFault.versionsReversed.rejectIf (m.maxVersion < m.minVersion)
  MessageFault.vendorEmpty.rejectIf m.vendor.toBytes.isEmpty
  MessageFault.firmwareEmpty.rejectIf m.firmware.toBytes.isEmpty

instance : Record SetupConnection where
  type := .setupConnection
  layout := [.u8, .u16, .u16, .u32, .text .upTo255, .u16, .text .upTo255, .text .upTo255,
    .text .upTo255, .text .upTo255]
  fields m := (m.protocol, m.minVersion, m.maxVersion, m.flags, m.endpointHost, m.endpointPort,
    m.vendor, m.hardwareVersion, m.firmware, m.deviceId, ())
  ofFields := fun (protocol, minVersion, maxVersion, flags, endpointHost, endpointPort, vendor,
    hardwareVersion, firmware, deviceId, ()) =>
    { protocol, minVersion, maxVersion, flags, endpointHost, endpointPort, vendor, hardwareVersion,
      firmware, deviceId }
  blank := {}
  validate := SetupConnection.validate

/-- The server accepts the connection. -/
structure SetupConnectionSuccess where
  /-- The version both will speak. -/
  usedVersion : UInt16 := protocolVersion
  /-- The features it requires. -/
  flags : UInt32 := 0

instance : Record SetupConnectionSuccess where
  type := .setupConnectionSuccess
  layout := [.u16, .u32]
  fields m := (m.usedVersion, m.flags, ())
  ofFields := fun (usedVersion, flags, ()) => { usedVersion, flags }
  blank := {}

/-- The server refuses the connection. -/
structure SetupConnectionError where
  /-- The features that are not supported. -/
  flags : UInt32 := 0
  /-- Why it refuses. -/
  errorCode : Text .upTo255 := default

/-- A refusal because of unsupported features says which. -/
def SetupConnectionError.validate (m : SetupConnectionError) : Except MessageFault Unit :=
  MessageFault.flagsMissing.rejectIf
    (m.errorCode.toBytes == Utf8.ofString ErrorCode.unsupportedFeatureFlags && m.flags == 0)

instance : Record SetupConnectionError where
  type := .setupConnectionError
  layout := [.u32, .text .upTo255]
  fields m := (m.flags, m.errorCode, ())
  ofFields := fun (flags, errorCode, ()) => { flags, errorCode }
  blank := {}
  validate := SetupConnectionError.validate

/-- A channel is served by another endpoint from now on. -/
structure ChannelEndpointChanged where
  /-- The channel. -/
  channelId : UInt32 := 0

instance : Record ChannelEndpointChanged where
  type := .channelEndpointChanged
  layout := [.u32]
  fields m := (m.channelId, ())
  ofFields := fun (channelId, ()) => { channelId }
  blank := {}

end Stratum
