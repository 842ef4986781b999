import Mathlib.Logic.ExistsUnique
import Stratum.Proofs.MessageFrames

/-!
# What becomes of an extension field, a code and a payload

They come from a peer and may be anything. Reading them ends in one of three ways, and
what decides which is said here once for each: what is not in the catalogue is handed back
as it came (`Decoded.deserialize_of_foreign`), and the rest is read as its type says, or is
refused as malformed (`Decoded.deserialize_of_type`).

* `MessageType.exists_unique_code_iff`: the codes of the catalogue are two ranges, and each
  code in them has one type. A type has a decoder (`Message.decodeAlternative_all`), so that
  there is always a record to read a payload as.
* `Record.deserialize_eq_error`: whatever goes wrong with a payload, a field or the rule, is
  reported of its message type.
* `Frame.decodeMessage_of_hasUnknownProtocol`: a set-up for a subprotocol without a name is
  malformed, whatever follows the subprotocol.
* **`dispatch_total_and_lossless`**: all of this together.
-/

namespace Stratum

/-! ### The codes of the catalogue -/

namespace MessageType

theorem code_inj {t u : MessageType} (h : t.code = u.code) : t = u :=
  Option.some.inj ((ofCode?_code t).symm.trans ((congrArg ofCode? h).trans (ofCode?_code u)))

/-- Whether the catalogue has a code is a matter of two ranges: those of the Common and of the Mining
protocol. -/
theorem exists_code_iff {c : UInt8} : (∃ t : MessageType, t.code = c) ↔ c ≤ 0x03 ∨ 0x10 ≤ c ∧ c ≤ 0x26 := by
  constructor
  · rintro ⟨t, rfl⟩
    cases t <;> decide
  · intro h
    exact ⟨_, code_of_ofCode? (dif_pos h)⟩

/-- **Every code within the ranges has one type**, and none outside has. -/
theorem exists_unique_code_iff {c : UInt8} :
    (∃! t : MessageType, t.code = c) ↔ c ≤ 0x03 ∨ 0x10 ≤ c ∧ c ≤ 0x26 := by
  rw [← exists_code_iff]
  constructor
  · exact ExistsUnique.exists
  · rintro ⟨t, rfl⟩
    exact ⟨t, rfl, fun _ => code_inj⟩

/-- A channel bit that is not what the type asks for is refused, and which way it differs is said. -/
theorem checkChannelBit_eq_error_iff {t : MessageType} {bit : Bool} {e : Fault} :
    t.checkChannelBit bit = .error e ↔ bit ≠ t.isChannelMessage ∧
      e = .message t (if bit then .channelBitUnexpected else .channelBitMissing) := by
  unfold checkChannelBit
  cases bit <;> cases t.isChannelMessage <;> simp [eq_comm]

end MessageType

/-! ### Payloads that are refused -/

/-- What breaks its rule is refused in the name of its message type. -/
theorem Record.check_eq_error_iff {M : Type} [Record M] {m : M} {e : Fault} :
    check m = .error e ↔ ∃ cause, validate m = .error cause ∧ e = .message (type M) cause := by
  unfold check
  cases validate m <;> simp [eq_comm]

/-- And so is a payload, of the message type that it was read as. -/
theorem Record.deserialize_eq_error {M : Type} [Record M] {payload : Bytes} {e : Fault}
    (h : deserialize M payload = .error e) : ∃ cause, e = .message (type M) cause := by
  unfold deserialize at h
  split at h
  · cases h
    exact ⟨_, rfl⟩
  · rename_i v _ _
    cases hcheck : check (ofFields v : M) with
    | ok _ =>
      cases (Attempt.bind_of_ok hcheck).symm.trans h
    | error _ =>
      cases (Attempt.bind_of_error hcheck).symm.trans h
      obtain ⟨cause, -, he⟩ := check_eq_error_iff.1 hcheck
      exact ⟨cause, he⟩

/-- A set-up that obeys its rule is for a subprotocol with a name. -/
theorem SetupConnection.isKnown_of_validate {m : SetupConnection} (h : m.validate = .ok ()) :
    Subprotocol.isKnown m.protocol = true := by
  obtain ⟨_, hknown, -⟩ := Attempt.bind_eq_ok_iff.1 h
  unfold MessageFault.rejectIf at hknown
  cases hprotocol : Subprotocol.isKnown m.protocol with
  | true => rfl
  | false =>
    rw [hprotocol] at hknown
    cases hknown

/-- The payload of a set-up starts with its subprotocol. -/
theorem SetupConnection.isKnown_of_deserialize {m : SetupConnection} {protocol : UInt8} {rest : Bytes}
    (h : Record.deserialize SetupConnection (protocol :: rest) = .ok m) : Subprotocol.isKnown protocol = true := by
  obtain ⟨hvalid, hpayload⟩ := Record.deserialize_eq_ok_iff.1 h
  have hfirst : protocol = UInt8.ofNat m.protocol.toNat := (List.cons.inj hpayload).1
  rw [hfirst, UInt8.ofNat_toNat]
  exact isKnown_of_validate hvalid

/-! ### The dispatch -/

namespace Decoded

variable {ext : UInt16} {code : UInt8} {payload : Bytes}

/-- Not in the catalogue: the extension is not 0, or no type has the code. -/
def Foreign (ext : UInt16) (code : UInt8) : Prop := ext &&& extensionMask ≠ 0 ∨ ∀ t : MessageType, t.code ≠ code

theorem foreign_or_exists_type (ext : UInt16) (code : UInt8) :
    Foreign ext code ∨ ext &&& extensionMask = 0 ∧ ∃ t : MessageType, t.code = code := by
  by_cases hmask : ext &&& extensionMask = 0
  · by_cases hcode : ∃ t : MessageType, t.code = code
    · exact .inr ⟨hmask, hcode⟩
    · exact .inl (.inr (not_exists.1 hcode))
  · exact .inl (.inl hmask)

/-- What is not in the catalogue is handed back. -/
theorem deserialize_of_foreign (h : Foreign ext code) :
    deserialize ext code payload = .ok (.unsupported ext code payload) := by
  have hnone : (if ext &&& extensionMask == 0 then MessageType.ofCode? code else none) = none := by
    rcases h with hmask | hcode
    · rw [if_neg (mt beq_iff_eq.1 hmask)]
    · cases htype : MessageType.ofCode? code with
      | none => exact ite_self _
      | some t => exact absurd (MessageType.code_of_ofCode? htype) (hcode t)
  unfold deserialize
  rw [hnone]

/-- The rest is read as its type says, behind a check of the channel bit. -/
theorem deserialize_of_type (t : MessageType) (hmask : ext &&& extensionMask = 0) :
    deserialize ext t.code payload = (do
      t.checkChannelBit (ext &&& channelBit != 0)
      return .message (← Message.decodeAlternative t payload MessageType.all)) := by
  unfold deserialize
  rw [if_pos (beq_iff_eq.2 hmask), MessageType.ofCode?_code]

theorem deserialize_eq_unsupported_iff {e : UInt16} {c : UInt8} {p : Bytes} :
    deserialize ext code payload = .ok (.unsupported e c p) ↔
      Foreign ext code ∧ e = ext ∧ c = code ∧ p = payload := by
  constructor
  · intro h
    rcases foreign_or_exists_type ext code with hforeign | ⟨hmask, t, rfl⟩
    · rw [deserialize_of_foreign hforeign] at h
      cases h
      exact ⟨hforeign, rfl, rfl, rfl⟩
    · rw [deserialize_of_type t hmask] at h
      obtain ⟨_, -, h⟩ := Attempt.bind_eq_ok_iff.1 h
      obtain ⟨_, -, h⟩ := Attempt.bind_eq_ok_iff.1 h
      cases h
  · rintro ⟨hforeign, rfl, rfl, rfl⟩
    exact deserialize_of_foreign hforeign

theorem deserialize_eq_message_iff {m : Message} :
    deserialize ext code payload = .ok (.message m) ↔
      ext &&& extensionMask = 0 ∧ m.type.code = code ∧ (ext &&& channelBit != 0) = m.type.isChannelMessage ∧
        Record.deserialize m.type.Body payload = .ok m.body := by
  constructor
  · intro h
    rcases foreign_or_exists_type ext code with hforeign | ⟨hmask, t, rfl⟩
    · rw [deserialize_of_foreign hforeign] at h
      cases h
    · rw [deserialize_of_type t hmask] at h
      obtain ⟨_, hbit, h⟩ := Attempt.bind_eq_ok_iff.1 h
      obtain ⟨m', hm', h⟩ := Attempt.bind_eq_ok_iff.1 h
      cases h
      obtain ⟨rfl, hbody⟩ := Message.decodeAlternative_all_eq_ok_iff.1 hm'
      exact ⟨hmask, rfl, MessageType.checkChannelBit_eq_ok_iff.1 hbit, hbody⟩
  · rintro ⟨hmask, rfl, hbit, hbody⟩
    rw [deserialize_of_type m.type hmask, Attempt.bind_of_ok (MessageType.checkChannelBit_eq_ok_iff.2 hbit)]
    exact Attempt.bind_of_ok (Message.decodeAlternative_all_eq_ok_iff.2 ⟨rfl, hbody⟩)

theorem deserialize_eq_error_iff {e : Fault} :
    deserialize ext code payload = .error e ↔
      ext &&& extensionMask = 0 ∧ ∃ t : MessageType, t.code = code ∧
        (t.checkChannelBit (ext &&& channelBit != 0) = .error e ∨
          t.checkChannelBit (ext &&& channelBit != 0) = .ok () ∧ Record.deserialize t.Body payload = .error e) := by
  constructor
  · intro h
    rcases foreign_or_exists_type ext code with hforeign | ⟨hmask, t, rfl⟩
    · rw [deserialize_of_foreign hforeign] at h
      cases h
    · refine ⟨hmask, t, rfl, ?_⟩
      rw [deserialize_of_type t hmask] at h
      cases hbit : t.checkChannelBit (ext &&& channelBit != 0) with
      | error _ =>
        rw [Attempt.bind_of_error hbit] at h
        cases h
        exact .inl rfl
      | ok _ =>
        rw [Attempt.bind_of_ok hbit] at h
        obtain hbody | ⟨_, -, h⟩ := Attempt.bind_eq_error_iff.1 h
        · exact .inr ⟨rfl, Message.decodeAlternative_all_eq_error_iff.1 hbody⟩
        · cases h
  · rintro ⟨hmask, t, rfl, hbit | ⟨hbit, hbody⟩⟩
    · rw [deserialize_of_type t hmask, Attempt.bind_of_error hbit]
    · rw [deserialize_of_type t hmask, Attempt.bind_of_ok hbit,
        Attempt.bind_of_error (Message.decodeAlternative_all_eq_error_iff.2 hbody)]

/-- Whatever is refused is malformed, in the name of the message type of the code. -/
theorem exists_cause_of_deserialize_eq_error {e : Fault} (h : deserialize ext code payload = .error e) :
    ∃ t cause, MessageType.code t = code ∧ e = .message t cause := by
  obtain ⟨-, t, rfl, hbit | ⟨-, hbody⟩⟩ := deserialize_eq_error_iff.1 h
  · exact ⟨t, _, rfl, (MessageType.checkChannelBit_eq_error_iff.1 hbit).2⟩
  · obtain ⟨cause, rfl⟩ := Record.deserialize_eq_error hbody
    rw [t.type_body]
    exact ⟨t, cause, rfl, rfl⟩

end Decoded

/-- A frame that is refused is malformed. -/
theorem Frame.kind_of_decodeMessage_eq_error {f : Frame} {e : Fault} (h : f.decodeMessage = .error e) :
    e.kind = .malformedMessage := by
  obtain ⟨_, _, -, rfl⟩ := Decoded.exists_cause_of_deserialize_eq_error h
  rfl

/-- A set-up for a subprotocol without a name is known by its header and by its first byte. -/
theorem Frame.hasUnknownProtocol_iff {f : Frame} : f.hasUnknownProtocol = true ↔
    f.extensionType = 0 ∧ f.messageType = MessageType.setupConnection.code ∧
      ∃ protocol rest, f.payload = protocol :: rest ∧ Subprotocol.isKnown protocol = false := by
  unfold hasUnknownProtocol
  cases f.payload <;> simp [and_assoc]

/-- It is refused, whatever else it says. -/
theorem Frame.decodeMessage_of_hasUnknownProtocol {f : Frame} (h : f.hasUnknownProtocol = true) :
    ∃ e, f.decodeMessage = .error e := by
  obtain ⟨hext, htype, protocol, rest, hpayload, hunknown⟩ := hasUnknownProtocol_iff.1 h
  have hread : f.decodeMessage = Decoded.deserialize 0 MessageType.setupConnection.code (protocol :: rest) := by
    rw [decodeMessage, hext, htype, hpayload]
  cases hdecode : f.decodeMessage with
  | error e => exact ⟨e, rfl⟩
  | ok decoded =>
    exfalso
    rw [hread] at hdecode
    cases decoded with
    | unsupported e c p =>
      rcases (Decoded.deserialize_eq_unsupported_iff.1 hdecode).1 with hmask | hcode
      · exact hmask rfl
      · exact hcode .setupConnection rfl
    | message m =>
      obtain ⟨type, body⟩ := m
      obtain ⟨-, hcode, -, hbody⟩ := Decoded.deserialize_eq_message_iff.1 hdecode
      obtain rfl : type = .setupConnection := MessageType.code_inj hcode
      cases hunknown.symm.trans (SetupConnection.isKnown_of_deserialize hbody)

/-- **The dispatch is total and loses nothing.** Whatever the extension field, the code and the payload are: they are
handed back, all three, if and only if the extension is not 0 or the code is outside the catalogue; they are read as a
message if and only if the channel bit is what the type of the code asks for and the payload is that of a record of
this type; and otherwise they are malformed, which is reported with the code. There is no other end: the codes within
the two ranges of the catalogue have one type each, to read the payload as. And a set-up for a subprotocol without a
name is malformed. -/
theorem dispatch_total_and_lossless :
    (∀ (ext : UInt16) (code : UInt8) (payload : Bytes),
      (∀ e c p, Decoded.deserialize ext code payload = .ok (.unsupported e c p) ↔
        (ext &&& 0x7fff ≠ 0 ∨ ∀ t : MessageType, t.code ≠ code) ∧ e = ext ∧ c = code ∧ p = payload) ∧
      (∀ m : Message, Decoded.deserialize ext code payload = .ok (.message m) ↔
        ext &&& 0x7fff = 0 ∧ m.type.code = code ∧ (ext &&& 0x8000 != 0) = m.type.isChannelMessage ∧
          Record.deserialize m.type.Body payload = .ok m.body) ∧
      (∀ e, Decoded.deserialize ext code payload = .error e ↔ ext &&& 0x7fff = 0 ∧ ∃ t : MessageType, t.code = code ∧
        ((ext &&& 0x8000 != 0) ≠ t.isChannelMessage ∧
            e = .message t (if ext &&& 0x8000 != 0 then .channelBitUnexpected else .channelBitMissing) ∨
          (ext &&& 0x8000 != 0) = t.isChannelMessage ∧ Record.deserialize t.Body payload = .error e)) ∧
      ∀ e, Decoded.deserialize ext code payload = .error e → e.kind = .malformedMessage ∧ e.messageType? = some code) ∧
    (∀ code : UInt8, (∃! t : MessageType, t.code = code) ↔ code ≤ 0x03 ∨ 0x10 ≤ code ∧ code ≤ 0x26) ∧
    (∀ f : Frame, f.hasUnknownProtocol = true → ∃ e, f.decodeMessage = .error e ∧ e.kind = .malformedMessage) := by
  refine ⟨fun ext code payload => ⟨fun e c p => ?_, fun m => ?_, fun e => ?_, fun e h => ?_⟩, fun code => ?_,
    fun f h => ?_⟩
  · exact Decoded.deserialize_eq_unsupported_iff
  · exact Decoded.deserialize_eq_message_iff
  · rw [Decoded.deserialize_eq_error_iff]
    simp only [MessageType.checkChannelBit_eq_error_iff, MessageType.checkChannelBit_eq_ok_iff]
    rfl
  · obtain ⟨t, cause, rfl, rfl⟩ := Decoded.exists_cause_of_deserialize_eq_error h
    exact ⟨rfl, rfl⟩
  · exact MessageType.exists_unique_code_iff
  · obtain ⟨e, he⟩ := Frame.decodeMessage_of_hasUnknownProtocol h
    exact ⟨e, he, Frame.kind_of_decodeMessage_eq_error he⟩

/-- A set-up for the subprotocol 7, of which nothing else has arrived, is malformed in the name of its type. -/
theorem dispatch_total_and_lossless_on_sample :
    ∃ f : Frame, f.payload = [7] ∧ f.hasUnknownProtocol = true ∧
      ∃ e, f.decodeMessage = .error e ∧ e.kind = .malformedMessage ∧ e.messageType? = some 0x00 := by
  let f : Frame := ⟨0, 0, [7], by decide⟩
  have hunknown : f.hasUnknownProtocol = true := by decide
  obtain ⟨e, he, -⟩ := dispatch_total_and_lossless.2.2 f hunknown
  obtain ⟨hkind, htype⟩ := (dispatch_total_and_lossless.1 0 0 [7]).2.2.2 e he
  exact ⟨f, rfl, hunknown, e, he, hkind, htype⟩

end Stratum
