import Stratum.Proofs.Authentication

/-!
# Hostile messages of a handshake

Both messages of a handshake come from whoever is at the other end, and may be any byte
string. What a side does with one is either to come through or to fail, and this module
says with which fault, so that a caller who acts on the kind of a fault acts rightly:

* **`Initiator.secondMessage_error`**: message 2 is refused as a failed handshake, or the
  certificate in it is rejected, and then it is `Initiator.Unsealed`: it has 170 bytes, both
  key agreements give a secret and both sealed parts open. No other fault comes out: what
  a part opens to has the length that the next step takes for granted, and no cipher of a
  handshake is near its last nonce.
* **`Responder.answer_eq_ok`**, **`Responder.answer_eq_error`**: message 1 is refused only for its
  length and for a key that gives no secret.
* `Initiator.run_sliced`, `Responder.run_sliced`: a side that looks before each slice that it
  reads finds every slice there, and says the same.
* **`Handshake.hostile_messages_classified`** puts the two sides together.

A key agreement fails in one way, with `KeyFault.agreement`. Of the suite it is assumed that
nothing opens but what was sealed (`Suite.Exact`).
-/

namespace Stratum

/-! ### Slices -/

/-- The bytes of a slice, if all of them are there. -/
def Bytes.slice? (bs : Bytes) (offset n : Nat) : Option Bytes :=
  if offset + n ≤ bs.length then some ((bs.drop offset).take n) else none

theorem Bytes.slice?_of_le {bs : Bytes} {offset n : Nat} (h : offset + n ≤ bs.length) :
    bs.slice? offset n = some ((bs.drop offset).take n) := if_pos h

/-- A slice up to the end is all that is left there. -/
theorem Bytes.slice?_to_end {bs : Bytes} {offset n : Nat} (h : offset + n = bs.length) :
    bs.slice? offset n = some (bs.drop offset) := by
  rw [slice?_of_le (Nat.le_of_eq h), List.take_of_length_le]
  rw [List.length_drop]
  omega

theorem FixedBytes.padded_take (n : Nat) (bs : Bytes) :
    FixedBytes.padded n (bs.take n) = FixedBytes.padded n bs := by
  refine FixedBytes.ext ?_
  show (bs.take n).take n ++ List.replicate (n - (bs.take n).length) 0
    = bs.take n ++ List.replicate (n - bs.length) 0
  rw [List.take_take, Nat.min_self, List.length_take]
  congr 2
  omega

/-! ### The ways in which a step fails -/

section

variable {S : Suite} {ss : SymmetricState} {fault : Fault}

/-- A key agreement of a handshake fails only if the keys give no secret, as a failed handshake. -/
theorem Handshake.mixAgreement_eq_error_iff {key peer : Key} :
    mixAgreement S ss key peer = .error fault ↔
      S.agree key peer = none ∧ fault = .handshake (.agreement .agreement) := by
  unfold mixAgreement Suite.agreement
  cases S.agree key peer with
  | none => simp [eq_comm]
  | some secret => simp

/-- Under a fresh key a part opens or does not; the nonce is not the reserved one. -/
theorem SymmetricState.exists_decryptAndHash_mixKey (ss : SymmetricState) (material : Bytes) {sealed : Bytes}
    (hsealed : Aead.Takes sealed) : ∃ opened, (ss.mixKey S material).decryptAndHash S sealed = .ok opened := by
  have hfresh : ¬ (0 : UInt64) = reservedNonce := by decide
  obtain ⟨opened, hopened⟩ := S.exists_openSealed (S.derive ss.chainingKey material).2 0
    (Aead.takes_toBytes ss.hash (by decide)) hsealed
  simp only [decryptAndHash, mixKey, CipherState.decrypt, KeyedCipher.ofKey, KeyedCipher.decrypt, if_neg hfresh,
    hopened]
  cases opened with
  | none => exact ⟨_, rfl⟩
  | some text => exact ⟨_, rfl⟩

/-- So a part fails only if it does not open. -/
theorem Handshake.eq_of_decryptOr_mixKey {cause : HandshakeFault} {material sealed : Bytes}
    (hsealed : Aead.Takes sealed) (h : decryptOr S cause (ss.mixKey S material) sealed = .error fault) :
    fault = .handshake cause := by
  obtain ⟨opened, hopened⟩ := ss.exists_decryptAndHash_mixKey material hsealed
  rw [decryptOr, Attempt.bind_of_ok hopened] at h
  cases opened with
  | none =>
    cases h
    rfl
  | some r => cases h

/-- What a part opens to is shorter than the part by a tag. -/
theorem Handshake.length_of_decryptOr (hS : S.Exact) {cause : HandshakeFault} {ss' : SymmetricState}
    {material sealed text : Bytes} {n : Nat}
    (h : decryptOr S cause (ss.mixKey S material) sealed = .ok (text, ss'))
    (hsealed : sealed.length = n + Aead.tagLength) : text.length = n :=
  Nat.add_right_cancel
    ((SymmetricState.length_of_decryptAndHash hS (decryptOr_eq_ok_iff.1 h)).symm.trans hsealed)

namespace CertificateMessage

/-- Whatever is as long as a certificate that travels is one. -/
theorem exists_decode {bs : Bytes} (h : bs.length = encodedLength) : ∃ m, decode bs = .ok m := by
  match bs, h with
  | v₀ :: v₁ :: f₀ :: f₁ :: f₂ :: f₃ :: n₀ :: n₁ :: n₂ :: n₃ :: signature, h =>
    have hV : (UInt16.ofNat (Bytes.toNatLE [v₀, v₁])).toNat = Bytes.toNatLE [v₀, v₁] :=
      UInt16.toNat_ofNat_of_lt' (Bytes.toNatLE_lt [v₀, v₁])
    have hF : (UInt32.ofNat (Bytes.toNatLE [f₀, f₁, f₂, f₃])).toNat = Bytes.toNatLE [f₀, f₁, f₂, f₃] :=
      UInt32.toNat_ofNat_of_lt' (Bytes.toNatLE_lt [f₀, f₁, f₂, f₃])
    have hN : (UInt32.ofNat (Bytes.toNatLE [n₀, n₁, n₂, n₃])).toNat = Bytes.toNatLE [n₀, n₁, n₂, n₃] :=
      UInt32.toNat_ofNat_of_lt' (Bytes.toNatLE_lt [n₀, n₁, n₂, n₃])
    have hsignature : signature.length = 64 := Nat.add_right_cancel (m := 10) h
    refine ⟨⟨.ofNat (Bytes.toNatLE [v₀, v₁]), .ofNat (Bytes.toNatLE [f₀, f₁, f₂, f₃]),
      .ofNat (Bytes.toNatLE [n₀, n₁, n₂, n₃]), ⟨signature, hsignature⟩⟩, decode_eq_ok_iff.2 ?_⟩
    rw [encode, hV, hF, hN]
    show _ = Bytes.ofNatLE [v₀, v₁].length _ ++ Bytes.ofNatLE [f₀, f₁, f₂, f₃].length _
      ++ Bytes.ofNatLE [n₀, n₁, n₂, n₃].length _ ++ signature
    rw [Bytes.ofNatLE_toNatLE, Bytes.ofNatLE_toNatLE, Bytes.ofNatLE_toNatLE]
    rfl

/-- A certificate is rejected in no other way than as one that does not authenticate. -/
theorem kind_of_verify {authority staticKey : Key} {m : CertificateMessage} {now : UInt32}
    (h : m.verify S authority staticKey now = .error fault) : fault.kind = .authenticationFailed := by
  unfold verify at h
  split at h
  · dsimp only at h
    split at h
    · split at h
      · cases h
      · cases h
        rfl
    · cases h
      rfl
  · cases h
    rfl

end CertificateMessage

end

/-! ### The initiator -/

namespace Initiator

variable {S : Suite} {authority : Key} {now : UInt32} {ss : SymmetricState} {ephemeral : KeyPair}
  {message : Bytes} {fault : Fault}

/-- What an initiator finds in message 2 before it looks at the certificate: two keys that give a secret, and two
sealed parts that open. -/
structure Unsealed (S : Suite) (ss : SymmetricState) (ephemeral : KeyPair) (message : Bytes) where
  /-- The responder's fresh key. -/
  remoteEphemeral : Key
  /-- The responder's static key, sealed. -/
  sealedKey : Bytes
  /-- The responder's certificate, sealed. -/
  sealedCertificate : Bytes
  /-- The secret of the two fresh keys. -/
  freshSecret : Key
  /-- The responder's static key. -/
  remoteStatic : Key
  /-- The state behind it. -/
  keyOpened : SymmetricState
  /-- The secret of the fresh key and the static one. -/
  staticSecret : Key
  /-- What travelled of the certificate. -/
  signed : CertificateMessage
  /-- The state behind it. -/
  certificateOpened : SymmetricState
  /-- The message has three parts. -/
  message_eq : message = remoteEphemeral.toBytes ++ sealedKey ++ sealedCertificate
  /-- It has 170 bytes. -/
  length_message : message.length = 170
  /-- The first 80 of them are the two keys. -/
  length_key : sealedKey.length = Handshake.sealedKeyLength
  /-- The fresh keys agree on the first secret. -/
  fresh : S.agree ephemeral.privateKey remoteEphemeral = some freshSecret
  /-- With it the static key opens. -/
  key_opened : ((ss.mixHash S remoteEphemeral.toBytes).mixKey S freshSecret.toBytes).decryptAndHash S
    sealedKey = .ok (some (remoteStatic.toBytes, keyOpened))
  /-- The static key agrees on the second secret. -/
  static : S.agree ephemeral.privateKey remoteStatic = some staticSecret
  /-- With it the certificate opens. -/
  certificate_opened : (keyOpened.mixKey S staticSecret.toBytes).decryptAndHash S sealedCertificate
    = .ok (some (signed.encode, certificateOpened))

/-- **Message 2 is refused as a failed handshake, or for its certificate**, and then everything before that has
succeeded. -/
theorem secondMessage_error (hS : S.Exact)
    (h : secondMessage S authority now ss ephemeral message = .error fault) :
    (∃ cause, fault = .handshake cause ∧ cause.kind = .handshakeFailed) ∨
      ∃ u : Unsealed S ss ephemeral message, u.signed.verify S authority u.remoteStatic now = .error fault := by
  unfold secondMessage at h
  split at h
  · cases h
    exact .inl ⟨.secondLength, rfl, rfl⟩
  rename_i hlength
  have hlength : message.length = 170 := Decidable.not_not.1 hlength
  obtain ⟨e, sealedKey, sealedCertificate, rfl, hkeyLength⟩ := Handshake.exists_parts hlength
  obtain ⟨hremote, hkey, hcertificate⟩ := Handshake.cut_secondMessage e sealedCertificate hkeyLength
  rw [hremote, hkey, hcertificate] at h
  have hcertificateLength : sealedCertificate.length = Handshake.sealedCertificateLength := by
    rw [List.length_append, List.length_append, e.length_eq, hkeyLength] at hlength
    exact Nat.add_left_cancel hlength
  have hkeyTakes : Aead.Takes sealedKey := Aead.takes_of_le (Nat.le_of_eq hkeyLength) (by decide)
  have hcertificateTakes : Aead.Takes sealedCertificate :=
    Aead.takes_of_le (Nat.le_of_eq hcertificateLength) (by decide)
  -- Each step fails, or the one behind it does.
  obtain hmix | ⟨_, hmix, h⟩ := Attempt.bind_eq_error_iff.1 h
  · exact .inl ⟨_, (Handshake.mixAgreement_eq_error_iff.1 hmix).2, rfl⟩
  obtain ⟨freshSecret, hfresh, rfl⟩ := Handshake.mixAgreement_eq_ok_iff.1 hmix
  obtain hkeyPart | ⟨⟨key, keyOpened⟩, hkeyPart, h⟩ := Attempt.bind_eq_error_iff.1 h
  · exact .inl ⟨_, Handshake.eq_of_decryptOr_mixKey hkeyTakes hkeyPart, rfl⟩
  have hopened := Handshake.decryptOr_eq_ok_iff.1 hkeyPart
  obtain hmix' | ⟨_, hmix', h⟩ := Attempt.bind_eq_error_iff.1 h
  · exact .inl ⟨_, (Handshake.mixAgreement_eq_error_iff.1 hmix').2, rfl⟩
  obtain ⟨staticSecret, hstatic, rfl⟩ := Handshake.mixAgreement_eq_ok_iff.1 hmix'
  obtain hcertPart | ⟨⟨payload, certificateOpened⟩, hcertPart, h⟩ := Attempt.bind_eq_error_iff.1 h
  · exact .inl ⟨_, Handshake.eq_of_decryptOr_mixKey hcertificateTakes hcertPart, rfl⟩
  have hcertOpened := Handshake.decryptOr_eq_ok_iff.1 hcertPart
  -- What opens to the key and to the certificate is as long as they are.
  have hwhole : (FixedBytes.padded 32 key).toBytes = key :=
    FixedBytes.toBytes_padded (Handshake.length_of_decryptOr hS hkeyPart hkeyLength)
  have hpayload : payload.length = CertificateMessage.encodedLength :=
    Handshake.length_of_decryptOr hS hcertPart hcertificateLength
  obtain ⟨signed, hsigned⟩ := CertificateMessage.exists_decode hpayload
  obtain hdecode | ⟨_, hdecode, h⟩ := Attempt.bind_eq_error_iff.1 h
  · cases hsigned.symm.trans hdecode
  cases hsigned.symm.trans hdecode
  rw [CertificateMessage.decode_eq_ok_iff.1 hsigned] at hcertOpened
  obtain hverify | ⟨_, -, h⟩ := Attempt.bind_eq_error_iff.1 h
  · exact .inr ⟨⟨e, sealedKey, sealedCertificate, freshSecret, FixedBytes.padded 32 key, keyOpened, staticSecret,
      signed, certificateOpened, rfl, hlength, hkeyLength, hfresh, by rw [hwhole]; exact hopened, hstatic,
      hcertOpened⟩, hverify⟩
  · cases h

/-- Message 2 as it is read by an initiator that looks before each slice: nothing is a slice that is not there. -/
def sliced (S : Suite) (authority : Key) (now : UInt32) (ss : SymmetricState) (ephemeral : KeyPair)
    (message : Bytes) : OptionT (Except Fault) Phase := do
  if message.length ≠ Handshake.secondMessageLength then throwThe Fault (.handshake .secondLength)
  let remoteEphemeral := FixedBytes.padded 32 (← (message.slice? 0 32).getM)
  let ss := ss.mixHash S remoteEphemeral.toBytes
  let ss ← Handshake.mixAgreement S ss ephemeral.privateKey remoteEphemeral
  let (key, ss) ← Handshake.decryptOr S .staticKey ss (← (message.slice? 32 Handshake.sealedKeyLength).getM)
  let remoteStatic := FixedBytes.padded 32 (← (key.slice? 0 32).getM)
  let ss ← Handshake.mixAgreement S ss ephemeral.privateKey remoteStatic
  let (payload, ss) ← Handshake.decryptOr S .certificate ss
    (← (message.slice? (32 + Handshake.sealedKeyLength) Handshake.sealedCertificateLength).getM)
  let signed ← CertificateMessage.decode payload
  let certificate ← signed.verify S authority remoteStatic now
  let (c₁, c₂) := (ss.split S).1
  return .established c₁ c₂ ss.hash remoteStatic certificate

/-- **No slice of message 2, and none of what opens, is out of range.** -/
theorem run_sliced (hS : S.Exact) :
    (sliced S authority now ss ephemeral message).run
      = some <$> secondMessage S authority now ss ephemeral message := by
  unfold sliced secondMessage
  by_cases h : message.length = Handshake.secondMessageLength
  · have hlength : message.length = 170 := h
    have hremote : message.slice? 0 32 = some (message.take 32) := Bytes.slice?_of_le (by omega)
    have hkey : message.slice? 32 Handshake.sealedKeyLength
        = some ((message.drop 32).take Handshake.sealedKeyLength) :=
      Bytes.slice?_of_le (by rw [hlength]; decide)
    have hcertificate : message.slice? (32 + Handshake.sealedKeyLength) Handshake.sealedCertificateLength
        = some (message.drop (32 + Handshake.sealedKeyLength)) := Bytes.slice?_to_end h.symm
    rw [if_neg (not_not_intro h), if_neg (not_not_intro h), hremote, hkey, hcertificate]
    simp only [Option.getM, pure_bind, OptionT.run_bind, OptionT.run_monadLift, monadLift_self, OptionT.run_map,
      Functor.map_map, Option.map_some, Option.elimM_map, Option.elim_some, map_bind, bind_pure_comp,
      FixedBytes.padded_take]
    refine Attempt.bind_congr fun ss hmix => ?_
    obtain ⟨secret, -, rfl⟩ := Handshake.mixAgreement_eq_ok_iff.1 hmix
    refine Attempt.bind_congr fun ⟨key, ss⟩ hpart => ?_
    -- The key that opens is read like the message, so it has to be long enough.
    have hwhole : key.length = 32 := Handshake.length_of_decryptOr hS hpart (by
      rw [List.length_take, List.length_drop, hlength]
      rfl)
    have hstatic : key.slice? 0 32 = some (key.drop 0) := Bytes.slice?_to_end hwhole.symm
    rw [hstatic]
    rfl
  · rw [if_pos h, if_pos h]
    rfl

end Initiator

/-! ### The responder -/

namespace Responder

variable {S : Suite} {staticKeys ephemeral : KeyPair} {certificate : CertificateMessage} {ss : SymmetricState}
  {remote : Key} {payload message : Bytes} {entropy : Entropy}

/-- What a responder that draws given random bytes refuses: a message 1 that is too short or too long, and one
whose key gives no secret with the fresh key or none with the static one. -/
def Refuses (S : Suite) (staticKeys : KeyPair) (entropy : Entropy) (message : Bytes) : Prop :=
  message.length < 32 ∨ 65535 < message.length ∨
    S.agree (KeyPair.ofEntropy S entropy).privateKey (FixedBytes.padded 32 message) = none ∨
      S.agree staticKeys.privateKey (FixedBytes.padded 32 message) = none

/-- With both secrets there is a message 2. -/
theorem secondMessage_of_some (hS : S.Exact) {freshSecret staticSecret : Key}
    (hfresh : S.agree ephemeral.privateKey remote = some freshSecret)
    (hstatic : S.agree staticKeys.privateKey remote = some staticSecret) :
    ∃ reply send receive hash, secondMessage S staticKeys certificate ss ephemeral remote payload
      = .ok (reply, .established send receive hash payload) := by
  obtain ⟨sealedKey, keySealed, hkey, -⟩ :=
    SymmetricState.encryptAndHash_mixKey hS.toSealing (ss.mixHash S ephemeral.publicKey.toBytes)
      freshSecret.toBytes (Aead.takes_toBytes staticKeys.publicKey (by decide))
  obtain ⟨sealedCertificate, certificateSealed, hcertificate, -⟩ :=
    SymmetricState.encryptAndHash_mixKey hS.toSealing keySealed staticSecret.toBytes
      (Aead.takes_of_le (Nat.le_of_eq certificate.length_encode) (by decide))
  refine ⟨ephemeral.publicKey.toBytes ++ sealedKey ++ sealedCertificate,
    .ofKey (S.derive certificateSealed.chainingKey []).2, .ofKey (S.derive certificateSealed.chainingKey []).1,
    certificateSealed.hash, ?_⟩
  unfold secondMessage
  rw [Attempt.bind_of_ok (Handshake.mixAgreement_eq_ok_iff.2 ⟨_, hfresh, rfl⟩), Attempt.bind_of_ok hkey]
  dsimp only
  rw [Attempt.bind_of_ok (Handshake.mixAgreement_eq_ok_iff.2 ⟨_, hstatic, rfl⟩), Attempt.bind_of_ok hcertificate]
  rfl

/-- Without one of the secrets there is none. -/
theorem secondMessage_of_none (hS : S.Exact) (h : S.agree ephemeral.privateKey remote = none ∨
      S.agree staticKeys.privateKey remote = none) :
    secondMessage S staticKeys certificate ss ephemeral remote payload
      = .error (.handshake (.agreement .agreement)) := by
  unfold secondMessage
  cases hfresh : S.agree ephemeral.privateKey remote with
  | none => exact Attempt.bind_of_error (Handshake.mixAgreement_eq_error_iff.2 ⟨hfresh, rfl⟩)
  | some freshSecret =>
    have hstatic : S.agree staticKeys.privateKey remote = none := by
      rw [hfresh] at h
      exact h.resolve_left nofun
    obtain ⟨sealedKey, keySealed, hkey, -⟩ :=
      SymmetricState.encryptAndHash_mixKey hS.toSealing (ss.mixHash S ephemeral.publicKey.toBytes)
        freshSecret.toBytes (Aead.takes_toBytes staticKeys.publicKey (by decide))
    rw [Attempt.bind_of_ok (Handshake.mixAgreement_eq_ok_iff.2 ⟨_, hfresh, rfl⟩), Attempt.bind_of_ok hkey]
    exact Attempt.bind_of_error (Handshake.mixAgreement_eq_error_iff.2 ⟨hstatic, rfl⟩)

theorem answer_of_length (h : message.length < 32 ∨ 65535 < message.length) :
    answer S staticKeys certificate message entropy = .error (.handshake .firstLength) entropy := by
  have hrange : message.length < Handshake.firstMessageMin ∨ maxNoiseMessage < message.length := h
  unfold answer
  rw [if_pos hrange]
  rfl

/-- A message 1 of a length that it may have is read, and the rest is message 2. -/
theorem answer_of_secondMessage (hlow : 32 ≤ message.length) (hhigh : message.length ≤ 65535)
    (hentropy : 32 ≤ entropy.length) :
    answer S staticKeys certificate message entropy
      = (MonadExcept.ofExcept (secondMessage S staticKeys certificate
          (Handshake.afterFirst S (FixedBytes.padded 32 message) (message.drop 32)) (KeyPair.ofEntropy S entropy)
          (FixedBytes.padded 32 message) (message.drop 32)) : Random (Bytes × Phase)) (entropy.drop 32) := by
  have hrange : ¬ (message.length < Handshake.firstMessageMin ∨ maxNoiseMessage < message.length) := by
    rw [Handshake.firstMessageMin, maxNoiseMessage]
    omega
  unfold answer
  rw [if_neg hrange]
  have hfirst : (MonadExcept.ofExcept (Handshake.decryptOr S .firstPayload
      ((Handshake.start S).mixHash S (FixedBytes.padded 32 message).toBytes) (message.drop 32)) :
        Random (Bytes × SymmetricState)) entropy
      = .ok (message.drop 32, Handshake.afterFirst S (FixedBytes.padded 32 message) (message.drop 32)) entropy := rfl
  have hgenerate : KeyPair.generate S entropy = .ok (.ofEntropy S entropy) (entropy.drop 32) :=
    KeyPair.generate_eq_ok_iff.2 ⟨hentropy, rfl, rfl⟩
  exact (Step.bind_of_ok hfirst).trans (Step.bind_of_ok hgenerate)

/-- **Message 1 is answered if it is not one of those that are refused.** -/
theorem answer_eq_ok (hS : S.Exact) (hentropy : 32 ≤ entropy.length)
    (h : ¬ Refuses S staticKeys entropy message) :
    ∃ reply send receive hash, answer S staticKeys certificate message entropy
      = .ok (reply, .established send receive hash (message.drop 32)) (entropy.drop 32) := by
  simp only [Refuses, not_or, Nat.not_lt, ← ne_eq, Option.ne_none_iff_exists'] at h
  obtain ⟨hlow, hhigh, ⟨freshSecret, hfresh⟩, staticSecret, hstatic⟩ := h
  obtain ⟨reply, send, receive, hash, hsecond⟩ : ∃ reply send receive hash,
      secondMessage S staticKeys certificate
          (Handshake.afterFirst S (FixedBytes.padded 32 message) (message.drop 32)) (KeyPair.ofEntropy S entropy)
          (FixedBytes.padded 32 message) (message.drop 32)
        = .ok (reply, .established send receive hash (message.drop 32)) :=
    secondMessage_of_some hS hfresh hstatic
  refine ⟨reply, send, receive, hash, ?_⟩
  rw [answer_of_secondMessage hlow hhigh hentropy, hsecond]
  rfl

/-- **Message 1 is refused as a failed handshake if it is.** -/
theorem answer_eq_error (hS : S.Exact) (hentropy : 32 ≤ entropy.length)
    (h : Refuses S staticKeys entropy message) :
    ∃ cause rest, answer S staticKeys certificate message entropy = .error (.handshake cause) rest ∧
      cause.kind = .handshakeFailed := by
  by_cases hlength : message.length < 32 ∨ 65535 < message.length
  · exact ⟨_, _, answer_of_length hlength, rfl⟩
  · obtain ⟨hlow, hhigh⟩ := not_or.1 hlength
    have hagree := (h.resolve_left hlow).resolve_left hhigh
    refine ⟨.agreement .agreement, entropy.drop 32, ?_, rfl⟩
    rw [answer_of_secondMessage (Nat.not_lt.1 hlow) (Nat.not_lt.1 hhigh) hentropy, secondMessage_of_none hS hagree]
    rfl

/-- Message 1 as it is read and answered by a responder that looks before each slice: nothing is a slice that is
not there. -/
def sliced (S : Suite) (staticKeys : KeyPair) (certificate : CertificateMessage) (message : Bytes) :
    OptionT Random (Bytes × Phase) := do
  let lift {α : Type} (x : Except Fault α) : OptionT Random α := OptionT.lift (MonadExcept.ofExcept x)
  if message.length < Handshake.firstMessageMin ∨ maxNoiseMessage < message.length then
    throwThe Fault (.handshake .firstLength)
  let remoteEphemeral := FixedBytes.padded 32 (← (message.slice? 0 32).getM)
  let ss := (Handshake.start S).mixHash S remoteEphemeral.toBytes
  let (firstPayload, ss) ← lift (Handshake.decryptOr S .firstPayload ss
    (← (message.slice? 32 (message.length - 32)).getM))
  let ephemeral ← KeyPair.generate S
  lift (secondMessage S staticKeys certificate ss ephemeral remoteEphemeral firstPayload)

/-- **No slice of message 1 is out of range.** -/
theorem run_sliced (S : Suite) (staticKeys : KeyPair) (certificate : CertificateMessage) (message : Bytes) :
    (sliced S staticKeys certificate message).run = some <$> answer S staticKeys certificate message := by
  unfold sliced answer
  by_cases h : message.length < Handshake.firstMessageMin ∨ maxNoiseMessage < message.length
  · rw [if_pos h, if_pos h]
    rfl
  · have hlow : 32 ≤ message.length := Nat.not_lt.1 (not_or.1 h).1
    have hremote : message.slice? 0 32 = some (message.take 32) := Bytes.slice?_of_le (by omega)
    have hpayload : message.slice? 32 (message.length - 32) = some (message.drop 32) :=
      Bytes.slice?_to_end (by omega)
    rw [if_neg h, if_neg h, hremote, hpayload]
    simp only [Option.getM, pure_bind, OptionT.run_bind, OptionT.run_lift, OptionT.run_monadLift, monadLift_self,
      Option.elimM_map, Option.elim_some, map_bind, bind_pure_comp, FixedBytes.padded_take]

end Responder

/-! ### Both sides -/

/-- What an initiator that awaits message 2 does with a byte string. -/
structure Initiator.Classifies (S : Suite) (i : Initiator) (ss : SymmetricState) (ephemeral : KeyPair)
    (message : Bytes) : Prop where
  /-- It comes through, or fails in one of two ways. -/
  settled : (∃ i', i.readSecondMessage S message = (.ok (), i') ∧ i'.isEstablished = true) ∨
    ∃ fault, i.readSecondMessage S message = (.error fault, i.fail) ∧
      (fault.kind = .handshakeFailed ∨ fault.kind = .authenticationFailed)
  /-- In the second only if the certificate is all that is wrong. -/
  rejected : ∀ fault i', i.readSecondMessage S message = (.error fault, i') →
    (fault.kind = .authenticationFailed ↔ ∃ u : Unsealed S ss ephemeral message,
      u.signed.verify S i.authority u.remoteStatic i.clock = .error fault)
  /-- It reads no slice that is not there. -/
  inRange : (sliced S i.authority i.clock ss ephemeral message).run
    = some <$> secondMessage S i.authority i.clock ss ephemeral message

/-- What a responder that awaits message 1 does with a byte string, if it draws its fresh key. -/
structure Responder.Classifies (S : Suite) (r : Responder) (entropy : Entropy) (message : Bytes) : Prop where
  /-- It comes through exactly if it does not refuse. -/
  accepted : ¬ Refuses S r.staticKeys entropy message →
    ∃ reply r', r.respond S message entropy = (.ok reply, r', entropy.drop 32) ∧ r'.isEstablished = true
  /-- It fails in one way. -/
  refused : Refuses S r.staticKeys entropy message →
    ∃ fault rest, r.respond S message entropy = (.error fault, r.fail, rest) ∧ fault.kind = .handshakeFailed
  /-- It reads no slice that is not there. -/
  inRange : (sliced S r.staticKeys r.certificate message).run
    = some <$> answer S r.staticKeys r.certificate message

theorem Initiator.classifies {S : Suite} (hS : S.Exact) {i : Initiator} {ss : SymmetricState} {ephemeral : KeyPair}
    (hphase : i.phase = .awaitingSecondMessage ss ephemeral) (message : Bytes) :
    i.Classifies S ss ephemeral message := by
  cases hsecond : secondMessage S i.authority i.clock ss ephemeral message with
  | ok phase =>
    obtain ⟨k₁, k₂, hash, key, certificate, rfl⟩ := secondMessage_unused hsecond
    have hread := readSecondMessage_eq_ok_iff.2 ⟨ss, ephemeral, _, hphase, hsecond, rfl⟩
    refine ⟨.inl ⟨_, hread, rfl⟩, fun fault i' herror => ?_, run_sliced hS⟩
    cases hread.symm.trans herror
  | error fault =>
    have hread : i.readSecondMessage S message = (.error fault, i.fail) := by
      simp only [readSecondMessage, hphase, hsecond]
    have hfault := secondMessage_error hS hsecond
    refine ⟨.inr ⟨fault, hread, ?_⟩, fun fault' i' herror => ?_, run_sliced hS⟩
    · obtain ⟨cause, rfl, hkind⟩ | ⟨u, hverify⟩ := hfault
      · exact .inl hkind
      · exact .inr (CertificateMessage.kind_of_verify hverify)
    · cases hread.symm.trans herror
      constructor
      · intro hkind
        obtain ⟨cause, rfl, hfailed⟩ | hunsealed := hfault
        · cases hkind.symm.trans hfailed
        · exact hunsealed
      · rintro ⟨u, hverify⟩
        exact CertificateMessage.kind_of_verify hverify

theorem Responder.classifies {S : Suite} (hS : S.Exact) {r : Responder} {entropy : Entropy}
    (hphase : r.phase = .awaitingFirstMessage) (hentropy : 32 ≤ entropy.length) (message : Bytes) :
    r.Classifies S entropy message where
  accepted h := by
    obtain ⟨reply, send, receive, hash, hanswer⟩ := answer_eq_ok hS hentropy h
    exact ⟨reply, _, respond_eq_ok_iff.2 ⟨hphase, _, hanswer, rfl⟩, rfl⟩
  refused h := by
    obtain ⟨cause, rest, hanswer, hkind⟩ : ∃ cause rest,
        answer S r.staticKeys r.certificate message entropy = .error (.handshake cause) rest ∧
          cause.kind = .handshakeFailed := answer_eq_error hS hentropy h
    refine ⟨.handshake cause, rest, ?_, hkind⟩
    simp only [respond, hphase, hanswer]
  inRange := run_sliced S r.staticKeys r.certificate message

/-- **Hostile messages are classified.** An initiator that reads any byte string as message 2 comes through, or the
handshake fails, or the certificate is rejected; a responder that reads any byte string as message 1 comes through,
or the handshake fails, for a length that is not 32 to 65 535 or for a key that gives no secret. -/
theorem Handshake.hostile_messages_classified {S : Suite} (hS : S.Exact) :
    (∀ (i : Initiator) (ss : SymmetricState) (ephemeral : KeyPair),
      i.phase = .awaitingSecondMessage ss ephemeral → ∀ message, i.Classifies S ss ephemeral message) ∧
    (∀ (r : Responder) (entropy : Entropy),
      r.phase = .awaitingFirstMessage → 32 ≤ entropy.length → ∀ message, r.Classifies S entropy message) := by
  constructor
  · intro i ss ephemeral hphase message
    exact Initiator.classifies hS hphase message
  · intro r entropy hphase hentropy message
    exact Responder.classifies hS hphase hentropy message

open Handshake.Sample in
/-- A certificate whose window is over is all that is wrong with a message 2, and an empty message 1 is refused. -/
theorem Handshake.hostile_messages_classified_on_sample :
    (∃ (i : Initiator) (ss : SymmetricState) (ephemeral : KeyPair) (message : Bytes),
      i.phase = .awaitingSecondMessage ss ephemeral ∧
        i.readSecondMessage Suite.standard message = (.error (.certificate .outsideWindow), i.fail) ∧
          Nonempty (Initiator.Unsealed Suite.standard ss ephemeral message)) ∧
    ∃ fault rest, responder.respond Suite.standard [] responderEntropy = (.error fault, responder.fail, rest) ∧
      fault.kind = .handshakeFailed := by
  obtain ⟨hinitiator, hresponder⟩ := hostile_messages_classified Suite.standard_exact
  constructor
  · let ss := afterFirst Suite.standard (KeyPair.ofEntropy Suite.standard initiatorEntropy).publicKey []
    let i : Initiator :=
      ⟨authority.publicKey, 90000, .awaitingSecondMessage ss (.ofEntropy Suite.standard initiatorEntropy)⟩
    obtain ⟨t⟩ := exists_secondTranscript Suite.standard_exact.toSealing ephemeral_agree static_agree certificate ss
    have hverify : certificate.verify Suite.standard authority.publicKey static.publicKey 90000
        = .error (.certificate .outsideWindow) := by
      obtain ⟨hwindow, hsignature⟩ := CertificateMessage.issue_eq_ok issue_eq
      have hsigned : Suite.standard.verify authority.publicKey (certificate.signedBytes static.publicKey)
          certificate.signature = true := by
        rw [hsignature]
        exact accepts
      have houtside : ¬ (decide ((1000 : UInt32) ≤ 90000) && decide ((90000 : UInt32) < 87400)) = true := by decide
      unfold CertificateMessage.verify
      rw [dif_pos hwindow]
      exact (if_pos hsigned).trans (if_neg houtside)
    have hread : i.readSecondMessage Suite.standard t.message = (.error (.certificate .outsideWindow), i.fail) := by
      have hsecond := t.initiator Suite.standard_exact.toSealing authority.publicKey 90000
      rw [hverify] at hsecond
      simp only [i, Initiator.readSecondMessage, hsecond]
      rfl
    obtain ⟨u, -⟩ := ((hinitiator i ss _ rfl t.message).rejected _ _ hread).1 rfl
    exact ⟨i, ss, _, t.message, rfl, hread, ⟨u⟩⟩
  · exact (hresponder responder responderEntropy rfl (by decide) []).refused (.inl (by decide))

end Stratum
