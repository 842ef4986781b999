import Stratum.Fault
import Stratum.Wire.Decode
import Stratum.Wire.Encode

/-!
# Message records

A message is a record of fields. What the codec needs of it is its type, the formats of its fields in the
order of the wire, the way between the record and the list of its fields, and the rule that the fields of
a sensible message obey beyond their formats. Everything else is the same for all messages.
-/

namespace Stratum

/-- A type of messages. -/
class Record (M : Type) where
  /-- Its entry in the catalogue. -/
  type : MessageType
  /-- The formats of its fields, in order. -/
  layout : List WireFormat
  /-- The fields of a message. -/
  fields : M → Fields layout
  /-- The message with the given fields. -/
  ofFields : Fields layout → M
  /-- The message before anything is filled in. -/
  blank : M
  /-- The rule that its fields obey. -/
  validate : M → Except MessageFault Unit := fun _ => .ok ()
  /-- A message is determined by its fields. -/
  ofFields_fields : ∀ m, ofFields (fields m) = m := by intros; rfl
  /-- Any fields make a message. -/
  fields_ofFields : ∀ v, fields (ofFields v) = v := by intros; rfl

/-- A rule about a message: it fails with a reason if a condition holds. -/
def MessageFault.rejectIf (cause : MessageFault) (bad : Bool) : Except MessageFault Unit :=
  if bad then .error cause else .ok ()

namespace Record

variable {M : Type} [Record M]

/-- Whether two messages are equal, with floating-point numbers compared as numbers. -/
def equal (x y : M) : Bool := Fields.equal (layout M) (fields x) (fields y)

/-- Fails, naming the message type, unless a message obeys its rule. -/
def check (m : M) : Except Fault Unit :=
  match validate m with
  | .ok () => .ok ()
  | .error cause => .error (.message (type M) cause)

/-- The payload that writes a message, if it obeys its rule. -/
def serialize (m : M) : Except Fault Bytes := do
  check m
  match Fields.encode (layout M) (fields m) with
  | .ok bs => return bs
  | .error cause => throw (.codec cause)

/-- The fields of a payload that holds nothing else. -/
def decodeFields (M : Type) [Record M] : Decoder (Fields (layout M)) := do
  let v ← Fields.decode (layout M)
  Decoder.expectEnd
  return v

/-- The message that a payload writes. It obeys its rule, and the payload holds nothing else. -/
def deserialize (M : Type) [Record M] (payload : Bytes) : Except Fault M :=
  match decodeFields M (Cursor.ofBytes payload) with
  | .error cause _ => .error (.message (type M) (.field cause))
  | .ok v _ => do
    let m : M := ofFields v
    check m
    return m

end Record

end Stratum
