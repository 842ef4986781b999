import Stratum.Message.Dispatch
import Stratum.Proofs.Codec

/-!
# Messages and their frames

The messages of the catalogue that obey their rule are in bijection with the
frames that hold a message (**`toFrame_bijective`**): a message has a frame if and
only if its rule accepts it, reading that frame gives the message back field for
field, and a frame that reads as a message is the frame of that message. Fields are
compared as they are written; a floating-point number is its 32 bits, so this also
holds of those that are not numbers.

The two ways are tied together by one description of each: what a record writes and
what it reads are the bytes of its fields (`Record.serialize_eq_ok_iff`,
`Record.deserialize_eq_ok_iff`), and the header of a message's frame is the only one
under which its payload is read (`isExtension_iff`). There is a decoder for every type
(`Message.decodeAlternative_all`). That no message is too long for a frame is a matter of
its layout (`maxLength_layout_le`).
-/

namespace Stratum

/-! ### Records and payloads -/

namespace Record

variable {M : Type} [Record M]

theorem check_eq_ok_iff {m : M} : check m = .ok () ↔ validate m = .ok () := by
  unfold check
  cases validate m <;> simp

/-- A record has a payload if it obeys its rule: the bytes of its fields. -/
theorem serialize_eq_ok_iff {m : M} {payload : Bytes} :
    serialize m = .ok payload ↔
      validate m = .ok () ∧ payload = Fields.written (layout M) (fields m) := by
  unfold serialize
  rw [Attempt.bind_eq_ok_iff, Fields.encode_eq]
  constructor
  · rintro ⟨_, hcheck, hbytes⟩
    cases hbytes
    exact ⟨check_eq_ok_iff.1 hcheck, rfl⟩
  · rintro ⟨hvalid, rfl⟩
    exact ⟨(), check_eq_ok_iff.2 hvalid, rfl⟩

/-- The only reason why a record has no payload is its rule. -/
theorem serialize_eq_error_iff {m : M} {e : Fault} :
    serialize m = .error e ↔ ∃ cause, validate m = .error cause ∧ e = .message (type M) cause := by
  unfold serialize check
  rw [Fields.encode_eq]
  cases hv : validate m with
  | ok _ =>
    constructor
    · intro h
      cases h
    · rintro ⟨_, h, -⟩
      cases h
  | error cause =>
    constructor
    · intro h
      cases h
      exact ⟨cause, rfl, rfl⟩
    · rintro ⟨_, h, rfl⟩
      cases h
      rfl

/-- A payload is read as a record that obeys its rule, and whose fields it is. -/
theorem deserialize_eq_ok_iff {m : M} {payload : Bytes} :
    deserialize M payload = .ok m ↔
      validate m = .ok () ∧ payload = Fields.written (layout M) (fields m) := by
  unfold deserialize
  constructor
  · intro h
    cases hd : decodeFields M (Cursor.ofBytes payload) with
    | error cause c => rw [hd] at h; cases h
    | ok v c =>
      rw [hd] at h
      obtain ⟨_, hcheck, hm⟩ := Attempt.bind_eq_ok_iff.1 h
      cases hm
      rw [fields_ofFields]
      exact ⟨check_eq_ok_iff.1 hcheck, Fields.decode_end_eq_ok_iff.1 ⟨c, hd⟩⟩
  · rintro ⟨hvalid, hpayload⟩
    obtain ⟨c, hd⟩ : ∃ c, decodeFields M (Cursor.ofBytes payload) = .ok (fields m) c :=
      Fields.decode_end_eq_ok_iff.2 hpayload
    rw [hd]
    show (check (ofFields (fields m)) >>= fun _ => pure (ofFields (fields m))) = _
    rw [ofFields_fields, Attempt.bind_of_ok (check_eq_ok_iff.2 hvalid)]
    rfl

end Record

/-! ### Headers -/

/-- An extension field without extension is the one that its channel bit makes. -/
theorem isExtension_iff {field : UInt16} {bit : Bool} :
    field &&& extensionMask = 0 ∧ (field &&& channelBit != 0) = bit ↔
      field = makeExtensionType 0 bit := by
  constructor
  · rintro ⟨hmask, rfl⟩
    -- The mask keeps the 15 low bits, so that the field is 0 or the channel bit.
    have hmod : field.toNat % 32768 = 0 := by
      have h := congrArg UInt16.toNat hmask
      rw [UInt16.toNat_and] at h
      exact (Nat.and_two_pow_sub_one_eq_mod field.toNat 15).symm.trans h
    have hlt : field.toNat < 65536 := field.toNat_lt
    have hcase : field = 0 ∨ field = 0x8000 := by
      rw [← UInt16.toNat_inj, ← UInt16.toNat_inj]
      show field.toNat = 0 ∨ field.toNat = 32768
      omega
    rcases hcase with rfl | rfl <;> decide
  · rintro rfl
    cases bit <;> decide

/-- Every layout of the catalogue fits into a frame. -/
theorem maxLength_layout_le (t : MessageType) :
    Fields.maxLength (Record.layout t.Body) ≤ maxPayloadLength := by
  cases t <;> decide

theorem MessageType.checkChannelBit_eq_ok_iff {t : MessageType} {bit : Bool} :
    t.checkChannelBit bit = .ok () ↔ bit = t.isChannelMessage := by
  unfold checkChannelBit
  cases bit <;> cases t.isChannelMessage <;> simp

/-! ### Frames -/

/-- The frame of a message holds its type's header and its payload. -/
theorem Message.toFrame_eq_ok_iff {m : Message} {f : Frame} :
    m.toFrame = .ok f ↔
      m.serialize = .ok f.payload ∧ f.messageType = m.type.code ∧
        f.extensionType = makeExtensionType 0 m.type.isChannelMessage := by
  unfold Message.toFrame
  rw [Attempt.bind_eq_ok_iff]
  constructor
  · rintro ⟨payload, hpayload, hf⟩
    unfold Frame.make at hf
    split at hf
    · cases hf
      exact ⟨hpayload, rfl, rfl⟩
    · cases hf
  · rintro ⟨hpayload, htype, hext⟩
    refine ⟨f.payload, hpayload, ?_⟩
    have hle : f.payload.length ≤ maxPayloadLength := f.payload_le
    rw [← htype, ← hext, Frame.make, dif_pos ⟨hle, hle⟩]

/-- Of decoders among which there is one for a type, that one reads the payload. -/
theorem Message.decodeAlternative_of_mem {t : MessageType} {payload : Bytes} {decoders : List MessageType}
    (h : t ∈ decoders) :
    decodeAlternative t payload decoders = (do return ⟨t, ← Record.deserialize t.Body payload⟩) := by
  induction decoders with
  | nil => cases h
  | cons u rest ih =>
    rw [decodeAlternative]
    by_cases hu : u = t
    · subst hu
      exact if_pos rfl
    · rw [if_neg hu]
      exact ih ((List.mem_cons.1 h).resolve_left fun heq => hu heq.symm)

/-- There is one for every type of the catalogue. -/
theorem Message.decodeAlternative_all (t : MessageType) (payload : Bytes) :
    decodeAlternative t payload MessageType.all = (do return ⟨t, ← Record.deserialize t.Body payload⟩) :=
  decodeAlternative_of_mem t.mem_all

theorem Message.decodeAlternative_all_eq_ok_iff {t : MessageType} {payload : Bytes} {m : Message} :
    decodeAlternative t payload MessageType.all = .ok m ↔
      m.type = t ∧ Record.deserialize m.type.Body payload = .ok m.body := by
  rw [decodeAlternative_all]
  constructor
  · intro h
    obtain ⟨body, hbody, hm⟩ := Attempt.bind_eq_ok_iff.1 h
    cases hm
    exact ⟨rfl, hbody⟩
  · rintro ⟨rfl, hbody⟩
    exact Attempt.bind_of_ok hbody

/-- A payload that is not read is not a record of the type. -/
theorem Message.decodeAlternative_all_eq_error_iff {t : MessageType} {payload : Bytes} {e : Fault} :
    decodeAlternative t payload MessageType.all = .error e ↔ Record.deserialize t.Body payload = .error e := by
  rw [decodeAlternative_all, Attempt.bind_eq_error_iff]
  exact or_iff_left fun ⟨_, _, h⟩ => nomatch h

/-- A frame holds a message if its header is that of the message's type and its payload reads as the
message's fields. -/
theorem Frame.decodeMessage_eq_message_iff {m : Message} {f : Frame} :
    f.decodeMessage = .ok (.message m) ↔
      Record.deserialize m.type.Body f.payload = .ok m.body ∧ f.messageType = m.type.code ∧
        f.extensionType = makeExtensionType 0 m.type.isChannelMessage := by
  unfold Frame.decodeMessage Decoded.deserialize
  constructor
  · intro h
    split at h
    · cases h
    · rename_i t ht
      obtain ⟨_, hbit, hrest⟩ := Attempt.bind_eq_ok_iff.1 h
      obtain ⟨m', hm', hm⟩ := Attempt.bind_eq_ok_iff.1 hrest
      cases hm
      obtain ⟨rfl, hbody⟩ := Message.decodeAlternative_all_eq_ok_iff.1 hm'
      split at ht
      · rename_i hmask
        exact ⟨hbody, (MessageType.code_of_ofCode? ht).symm, isExtension_iff.1
          ⟨beq_iff_eq.1 hmask, MessageType.checkChannelBit_eq_ok_iff.1 hbit⟩⟩
      · cases ht
  · rintro ⟨hbody, htype, hext⟩
    obtain ⟨hmask, hbit⟩ := isExtension_iff.2 hext
    rw [htype, if_pos (beq_iff_eq.2 hmask), MessageType.ofCode?_code]
    refine (Attempt.bind_of_ok (MessageType.checkChannelBit_eq_ok_iff.2 hbit)).trans ?_
    exact Attempt.bind_of_ok (Message.decodeAlternative_all_eq_ok_iff.2 ⟨rfl, hbody⟩)

/-- A message that has a payload has a frame: no message is too long. -/
theorem Message.exists_toFrame_iff {m : Message} :
    (∃ f, m.toFrame = .ok f) ↔ ∃ payload, m.serialize = .ok payload := by
  constructor
  · rintro ⟨f, hf⟩
    exact ⟨f.payload, (toFrame_eq_ok_iff.1 hf).1⟩
  · rintro ⟨payload, hpayload⟩
    have hle : payload.length ≤ maxPayloadLength := by
      rw [(Record.serialize_eq_ok_iff.1 hpayload).2]
      exact Nat.le_trans (Fields.length_written_le _ _) (maxLength_layout_le m.type)
    exact ⟨⟨_, _, payload, hle⟩, toFrame_eq_ok_iff.2 ⟨hpayload, rfl, rfl⟩⟩

/-- A message without a frame breaks its rule. -/
theorem Message.toFrame_eq_error_iff {m : Message} {e : Fault} :
    m.toFrame = .error e ↔
      ∃ cause, Record.validate m.body = .error cause ∧ e = .message m.type cause := by
  have hserialize : m.serialize = .error e ↔
      ∃ cause, Record.validate m.body = .error cause ∧ e = .message m.type cause := by
    have h := Record.serialize_eq_error_iff (m := m.body) (e := e)
    rwa [MessageType.type_body] at h
  rw [← hserialize]
  cases hm : m.serialize with
  | ok payload =>
    obtain ⟨f, hf⟩ := exists_toFrame_iff.2 ⟨payload, hm⟩
    rw [hf]
    simp
  | error e' =>
    rw [Message.toFrame, Attempt.bind_of_error hm]
    simp

/-- **Messages and frames.** A message has a frame exactly if its rule accepts it, and otherwise fails
with its rule's reason; and a frame is the frame of a message exactly if it reads as that message. -/
theorem toFrame_bijective :
    (∀ m : Message, (∃ f, m.toFrame = .ok f) ↔ Record.validate m.body = .ok ()) ∧
    (∀ (m : Message) (e : Fault), m.toFrame = .error e ↔
      ∃ cause, Record.validate m.body = .error cause ∧ e = .message m.type cause) ∧
    (∀ (m : Message) (f : Frame), m.toFrame = .ok f ↔ f.decodeMessage = .ok (.message m)) := by
  refine ⟨fun m => ?_, fun m e => Message.toFrame_eq_error_iff, fun m f => ?_⟩
  · rw [Message.exists_toFrame_iff]
    constructor
    · rintro ⟨payload, hpayload⟩
      exact (Record.serialize_eq_ok_iff.1 hpayload).1
    · intro hvalid
      exact ⟨_, Record.serialize_eq_ok_iff.2 ⟨hvalid, rfl⟩⟩
  · rw [Message.toFrame_eq_ok_iff, Frame.decodeMessage_eq_message_iff, Record.deserialize_eq_ok_iff]
    exact and_congr_left fun _ => Record.serialize_eq_ok_iff

end Stratum
