/-!
# Message types

The catalogue of messages of the Common and Mining protocols: 27 types, each with its code on the wire,
its name, and the channel bit that a frame of that type has to carry.
-/

namespace Stratum

/-- The messages of the Common protocol (codes `0x00` to `0x03`) and of the Mining protocol
(codes `0x10` to `0x26`), in the order of their codes. -/
inductive MessageType where
  /-- Opens a connection: the client states its protocol, versions and flags. -/
  | setupConnection
  /-- The server accepts a connection. -/
  | setupConnectionSuccess
  /-- The server refuses a connection. -/
  | setupConnectionError
  /-- A proxy moved a channel to another endpoint. -/
  | channelEndpointChanged
  /-- Asks for a channel for header-only mining. -/
  | openStandardMiningChannel
  /-- Grants a standard channel. -/
  | openStandardMiningChannelSuccess
  /-- Refuses a standard channel. -/
  | openStandardMiningChannelError
  /-- Asks for a channel with a searchable extranonce. -/
  | openExtendedMiningChannel
  /-- Grants an extended channel. -/
  | openExtendedMiningChannelSuccess
  /-- Refuses an extended channel. -/
  | openExtendedMiningChannelError
  /-- Announces a new hash rate or target of a channel. -/
  | updateChannel
  /-- Refuses an update. -/
  | updateChannelError
  /-- Closes a channel. -/
  | closeChannel
  /-- Changes the extranonce prefix of a channel. -/
  | setExtranoncePrefix
  /-- A share on a standard channel. -/
  | submitSharesStandard
  /-- A share on an extended channel. -/
  | submitSharesExtended
  /-- Acknowledges shares. -/
  | submitSharesSuccess
  /-- Refuses a share. -/
  | submitSharesError
  /-- A job for a standard channel. -/
  | newMiningJob
  /-- A job for an extended channel. -/
  | newExtendedMiningJob
  /-- A new previous block hash. -/
  | setNewPrevHash
  /-- A new maximum target of a channel. -/
  | setTarget
  /-- Asks to mine a job the client built itself. -/
  | setCustomMiningJob
  /-- Accepts a custom job. -/
  | setCustomMiningJobSuccess
  /-- Refuses a custom job. -/
  | setCustomMiningJobError
  /-- Sends the client to another host. -/
  | reconnect
  /-- Puts channels into a group. -/
  | setGroupChannel
  deriving DecidableEq, Repr, Inhabited

namespace MessageType

/-- The code of a type on the wire. -/
def code : MessageType → UInt8
  | setupConnection => 0x00
  | setupConnectionSuccess => 0x01
  | setupConnectionError => 0x02
  | channelEndpointChanged => 0x03
  | openStandardMiningChannel => 0x10
  | openStandardMiningChannelSuccess => 0x11
  | openStandardMiningChannelError => 0x12
  | openExtendedMiningChannel => 0x13
  | openExtendedMiningChannelSuccess => 0x14
  | openExtendedMiningChannelError => 0x15
  | updateChannel => 0x16
  | updateChannelError => 0x17
  | closeChannel => 0x18
  | setExtranoncePrefix => 0x19
  | submitSharesStandard => 0x1a
  | submitSharesExtended => 0x1b
  | submitSharesSuccess => 0x1c
  | submitSharesError => 0x1d
  | newMiningJob => 0x1e
  | newExtendedMiningJob => 0x1f
  | setNewPrevHash => 0x20
  | setTarget => 0x21
  | setCustomMiningJob => 0x22
  | setCustomMiningJobSuccess => 0x23
  | setCustomMiningJobError => 0x24
  | reconnect => 0x25
  | setGroupChannel => 0x26

/-- All types, in the order of their codes. -/
def all : List MessageType :=
  [setupConnection, setupConnectionSuccess, setupConnectionError, channelEndpointChanged,
   openStandardMiningChannel, openStandardMiningChannelSuccess, openStandardMiningChannelError,
   openExtendedMiningChannel, openExtendedMiningChannelSuccess, openExtendedMiningChannelError,
   updateChannel, updateChannelError, closeChannel, setExtranoncePrefix,
   submitSharesStandard, submitSharesExtended, submitSharesSuccess, submitSharesError,
   newMiningJob, newExtendedMiningJob, setNewPrevHash, setTarget,
   setCustomMiningJob, setCustomMiningJobSuccess, setCustomMiningJobError,
   reconnect, setGroupChannel]

/-- The codes of the catalogue: the range of the Common protocol and that of the Mining protocol. -/
def InRanges (code : UInt8) : Prop := code ≤ 0x03 ∨ 0x10 ≤ code ∧ code ≤ 0x26

instance (code : UInt8) : Decidable (InRanges code) := inferInstanceAs (Decidable (_ ∨ _))

/-- The place of a code within the ranges. -/
def place (code : UInt8) : Nat := if code ≤ 0x03 then code.toNat else code.toNat - 12

theorem place_lt {code : UInt8} (h : InRanges code) : place code < all.length := by
  unfold place
  split
  · rename_i hlow
    exact Nat.lt_of_le_of_lt (UInt8.le_iff_toNat_le.1 hlow) (by decide)
  · rename_i hlow
    have hhigh : code.toNat ≤ 38 := UInt8.le_iff_toNat_le.1 (h.resolve_left hlow).2
    exact Nat.lt_of_le_of_lt (Nat.sub_le_sub_right hhigh 12) (by decide)

/-- The type with a given code, if the code is within the ranges. -/
def ofCode? (code : UInt8) : Option MessageType :=
  if h : InRanges code then some (all.get ⟨place code, place_lt h⟩) else none

/-- The name of a type, as diagnostics print it. -/
def name : MessageType → String
  | setupConnection => "SetupConnection"
  | setupConnectionSuccess => "SetupConnectionSuccess"
  | setupConnectionError => "SetupConnectionError"
  | channelEndpointChanged => "ChannelEndpointChanged"
  | openStandardMiningChannel => "OpenStandardMiningChannel"
  | openStandardMiningChannelSuccess => "OpenStandardMiningChannelSuccess"
  | openStandardMiningChannelError => "OpenStandardMiningChannelError"
  | openExtendedMiningChannel => "OpenExtendedMiningChannel"
  | openExtendedMiningChannelSuccess => "OpenExtendedMiningChannelSuccess"
  | openExtendedMiningChannelError => "OpenExtendedMiningChannelError"
  | updateChannel => "UpdateChannel"
  | updateChannelError => "UpdateChannelError"
  | closeChannel => "CloseChannel"
  | setExtranoncePrefix => "SetExtranoncePrefix"
  | submitSharesStandard => "SubmitSharesStandard"
  | submitSharesExtended => "SubmitSharesExtended"
  | submitSharesSuccess => "SubmitSharesSuccess"
  | submitSharesError => "SubmitSharesError"
  | newMiningJob => "NewMiningJob"
  | newExtendedMiningJob => "NewExtendedMiningJob"
  | setNewPrevHash => "SetNewPrevHash"
  | setTarget => "SetTarget"
  | setCustomMiningJob => "SetCustomMiningJob"
  | setCustomMiningJobSuccess => "SetCustomMiningJobSuccess"
  | setCustomMiningJobError => "SetCustomMiningJobError"
  | reconnect => "Reconnect"
  | setGroupChannel => "SetGroupChannel"

/-- The type with a given name. -/
def ofName? (name : String) : Option MessageType :=
  all.find? fun t => t.name == name

/-- Whether a frame of this type has to carry the channel bit: the messages about one open channel do,
except those about custom jobs and groups. -/
def isChannelMessage : MessageType → Bool
  | channelEndpointChanged | updateChannel | updateChannelError | closeChannel | setExtranoncePrefix
  | submitSharesStandard | submitSharesExtended | submitSharesSuccess | submitSharesError
  | newMiningJob | newExtendedMiningJob | setNewPrevHash | setTarget => true
  | _ => false

/-- The name for a code, also one that the catalogue does not have. -/
def nameOfCode (code : UInt8) : String := (ofCode? code).elim "Unknown" name

/-- Whether a code is one of a message about an open channel. -/
def isChannelCode (code : UInt8) : Bool := (ofCode? code).any isChannelMessage

theorem ofCode?_code (t : MessageType) : ofCode? t.code = some t := by
  cases t <;> rfl

theorem code_of_ofCode? {c : UInt8} {t : MessageType} (h : ofCode? c = some t) : t.code = c := by
  have hall : ∀ n < 256, (ofCode? (UInt8.ofNat n)).all fun t => t.code == UInt8.ofNat n := by decide +kernel
  have hcode := hall c.toNat c.toNat_lt
  rw [UInt8.ofNat_toNat, h] at hcode
  simpa using hcode

theorem mem_all (t : MessageType) : t ∈ all := by
  cases t <;> decide

end MessageType

end Stratum
