import Stratum.Message.Channel
import Stratum.Message.Job
import Stratum.Message.Setup
import Stratum.Message.Share

/-!
# Messages

A message is an entry of the catalogue and a record of that entry's type. The codec of all messages is
that of their records.
-/

namespace Stratum

/-- The records of each type of message. -/
def MessageType.Body : MessageType → Type
  | .setupConnection => SetupConnection
  | .setupConnectionSuccess => SetupConnectionSuccess
  | .setupConnectionError => SetupConnectionError
  | .channelEndpointChanged => ChannelEndpointChanged
  | .openStandardMiningChannel => OpenStandardMiningChannel
  | .openStandardMiningChannelSuccess => OpenStandardMiningChannelSuccess
  | .openStandardMiningChannelError => OpenStandardMiningChannelError
  | .openExtendedMiningChannel => OpenExtendedMiningChannel
  | .openExtendedMiningChannelSuccess => OpenExtendedMiningChannelSuccess
  | .openExtendedMiningChannelError => OpenExtendedMiningChannelError
  | .updateChannel => UpdateChannel
  | .updateChannelError => UpdateChannelError
  | .closeChannel => CloseChannel
  | .setExtranoncePrefix => SetExtranoncePrefix
  | .submitSharesStandard => SubmitSharesStandard
  | .submitSharesExtended => SubmitSharesExtended
  | .submitSharesSuccess => SubmitSharesSuccess
  | .submitSharesError => SubmitSharesError
  | .newMiningJob => NewMiningJob
  | .newExtendedMiningJob => NewExtendedMiningJob
  | .setNewPrevHash => SetNewPrevHash
  | .setTarget => SetTarget
  | .setCustomMiningJob => SetCustomMiningJob
  | .setCustomMiningJobSuccess => SetCustomMiningJobSuccess
  | .setCustomMiningJobError => SetCustomMiningJobError
  | .reconnect => Reconnect
  | .setGroupChannel => SetGroupChannel

instance (t : MessageType) : Record t.Body :=
  match t with
  | .setupConnection => inferInstanceAs (Record SetupConnection)
  | .setupConnectionSuccess => inferInstanceAs (Record SetupConnectionSuccess)
  | .setupConnectionError => inferInstanceAs (Record SetupConnectionError)
  | .channelEndpointChanged => inferInstanceAs (Record ChannelEndpointChanged)
  | .openStandardMiningChannel => inferInstanceAs (Record OpenStandardMiningChannel)
  | .openStandardMiningChannelSuccess => inferInstanceAs (Record OpenStandardMiningChannelSuccess)
  | .openStandardMiningChannelError => inferInstanceAs (Record OpenStandardMiningChannelError)
  | .openExtendedMiningChannel => inferInstanceAs (Record OpenExtendedMiningChannel)
  | .openExtendedMiningChannelSuccess => inferInstanceAs (Record OpenExtendedMiningChannelSuccess)
  | .openExtendedMiningChannelError => inferInstanceAs (Record OpenExtendedMiningChannelError)
  | .updateChannel => inferInstanceAs (Record UpdateChannel)
  | .updateChannelError => inferInstanceAs (Record UpdateChannelError)
  | .closeChannel => inferInstanceAs (Record CloseChannel)
  | .setExtranoncePrefix => inferInstanceAs (Record SetExtranoncePrefix)
  | .submitSharesStandard => inferInstanceAs (Record SubmitSharesStandard)
  | .submitSharesExtended => inferInstanceAs (Record SubmitSharesExtended)
  | .submitSharesSuccess => inferInstanceAs (Record SubmitSharesSuccess)
  | .submitSharesError => inferInstanceAs (Record SubmitSharesError)
  | .newMiningJob => inferInstanceAs (Record NewMiningJob)
  | .newExtendedMiningJob => inferInstanceAs (Record NewExtendedMiningJob)
  | .setNewPrevHash => inferInstanceAs (Record SetNewPrevHash)
  | .setTarget => inferInstanceAs (Record SetTarget)
  | .setCustomMiningJob => inferInstanceAs (Record SetCustomMiningJob)
  | .setCustomMiningJobSuccess => inferInstanceAs (Record SetCustomMiningJobSuccess)
  | .setCustomMiningJobError => inferInstanceAs (Record SetCustomMiningJobError)
  | .reconnect => inferInstanceAs (Record Reconnect)
  | .setGroupChannel => inferInstanceAs (Record SetGroupChannel)

theorem MessageType.type_body (t : MessageType) : Record.type t.Body = t := by
  cases t <;> rfl

/-- A message of the catalogue. -/
structure Message where
  /-- Its type. -/
  type : MessageType
  /-- Its fields. -/
  body : type.Body

namespace Message

/-- The payload that writes a message. -/
def serialize (m : Message) : Except Fault Bytes := Record.serialize m.body

end Message

end Stratum
