import Stratum.Noise.Initiator
import Stratum.Noise.Responder
import Stratum.Proofs.Codec
import Stratum.Proofs.Sealing

/-!
# Both sides of a handshake agree

The initiator and the responder each write their own transcript of a handshake:
what is hashed, which secrets are mixed in, what is sealed and what is opened. This
module shows that the two transcripts are one. If nothing changes the messages on
their way and the key agreements of the two sides give the same secrets, then

* what one side seals the other opens, and both go on from the same state
  (`SymmetricState.decryptAndHash_of_encryptAndHash`);
* the values of message 2 are a `Handshake.SecondTranscript`, and both sides have the
  same one: it is what the responder writes (`SecondTranscript.responder`), and what the
  initiator makes of it depends on nothing but its check of the certificate
  (`SecondTranscript.initiator`): it fails as the check fails, and otherwise has the
  responder's two ciphers the other way round, its hash, its static key and the certificate;
* **`handshake_agrees`**: with a certificate that the authority issued for the
  responder's static key, and a time inside its window, the handshake succeeds.

What is assumed: opening undoes sealing (`Suite.Sealing`); the pairs of keys that
meet in the handshake agree on a secret (`KeyPair.Agree`); and the authority's public
key accepts its signature of the one text that is signed (`AuthorityKeyPair.Accepts`).
-/

namespace Stratum

/-! ### Symmetric states -/

namespace SymmetricState

variable {S : Suite} {ss ss' : SymmetricState}

/-- **What one side seals the other opens**, and both go on from the same state. -/
theorem decryptAndHash_of_encryptAndHash (hS : S.Sealing) {text sealed : Bytes}
    (h : ss.encryptAndHash S text = .ok (sealed, ss')) :
    ss.decryptAndHash S sealed = .ok (some (text, ss')) := by
  obtain ⟨⟨sealed', cipher⟩, hc, hpair⟩ := Attempt.bind_eq_ok_iff.1 h
  cases hpair
  have hopen : ss.cipher.decrypt S ss.hash.toBytes sealed = .ok (some (text, cipher)) := by
    cases hcipher : ss.cipher with
    | unkeyed n =>
      rw [hcipher] at hc
      cases hc
      rfl
    | keyed c =>
      rw [hcipher] at hc
      obtain ⟨⟨_, c'⟩, hk, hpair⟩ := Attempt.bind_eq_ok_iff.1 hc
      cases hpair
      obtain ⟨hn, hsealed, rfl⟩ := KeyedCipher.encrypt_eq_ok_iff.1 hk
      exact Attempt.bind_of_ok (KeyedCipher.decrypt_eq_ok_iff.2 ⟨hn, hS.openSealed_of_sealText hsealed, rfl⟩)
  exact Attempt.bind_of_ok hopen

/-- After a secret is mixed in, the next text is sealed, with a tag. -/
theorem encryptAndHash_mixKey (hS : S.Sealing) (ss : SymmetricState) (material : Bytes) {text : Bytes}
    (htext : Aead.Takes text) : ∃ sealed ss', (ss.mixKey S material).encryptAndHash S text = .ok (sealed, ss') ∧
      sealed.length = text.length + Aead.tagLength := by
  let c := KeyedCipher.ofKey (S.derive ss.chainingKey material).2
  have hfresh : (0 : UInt64) ≠ reservedNonce := by decide
  have hsealed : S.sealText c.key c.nonce ss.hash.toBytes text = .ok (S.encrypt c.key c.nonce ss.hash.toBytes text) :=
    Suite.sealText_of_takes (Aead.takes_toBytes ss.hash (by decide)) htext
  have hcipher : c.encrypt S ss.hash.toBytes text = .ok (_, _) :=
    KeyedCipher.encrypt_eq_ok_iff.2 ⟨hfresh, hsealed, rfl⟩
  exact ⟨_, _, Attempt.bind_of_ok (Attempt.bind_of_ok hcipher), hS.length_encrypt _ _ _ _⟩

end SymmetricState

/-! ### Key agreement -/

/-- Two key pairs agree on a secret: each private key gives it with the other public key. -/
def KeyPair.Agree (S : Suite) (a b : KeyPair) : Prop :=
  ∃ secret, S.agree a.privateKey b.publicKey = some secret ∧
    S.agree b.privateKey a.publicKey = some secret

/-- The key pair that random bytes give. -/
def KeyPair.ofEntropy (S : Suite) (entropy : Entropy) : KeyPair :=
  .ofPrivate S (S.privateKey (.padded 32 (entropy.take 32)))

theorem KeyPair.generate_eq_ok_iff {S : Suite} {entropy rest : Entropy} {pair : KeyPair} :
    KeyPair.generate S entropy = .ok pair rest ↔
      32 ≤ entropy.length ∧ pair = .ofEntropy S entropy ∧ rest = entropy.drop 32 := by
  constructor
  · intro h
    obtain ⟨key, e₁, hkey, hpair⟩ := Step.bind_eq_ok_iff.1 h
    obtain ⟨bs, e₂, hdraw, hpure⟩ := Step.bind_eq_ok_iff.1 hkey
    cases hpair
    cases hpure
    simp only [Random.draw] at hdraw
    split at hdraw
    · rename_i hlen
      cases hdraw
      rw [List.length_take] at hlen
      exact ⟨by omega, rfl, rfl⟩
    · cases hdraw
  · rintro ⟨hlen, rfl, rfl⟩
    have hdraw : Random.draw 32 .generation entropy = .ok (entropy.take 32) (entropy.drop 32) :=
      if_pos (List.length_take_of_le hlen)
    have hkey : Random.key entropy = .ok (.padded 32 (entropy.take 32)) (entropy.drop 32) :=
      Step.bind_of_ok hdraw
    exact Step.bind_of_ok hkey

namespace Handshake

variable {S : Suite} {ss ss' : SymmetricState}

theorem mixAgreement_eq_ok_iff {key peer : Key} :
    mixAgreement S ss key peer = .ok ss' ↔
      ∃ secret, S.agree key peer = some secret ∧ ss' = ss.mixKey S secret.toBytes := by
  unfold mixAgreement Suite.agreement
  cases S.agree key peer with
  | none => simp
  | some secret => simp [eq_comm]

theorem decryptOr_of_encryptAndHash (hS : S.Sealing) (cause : HandshakeFault) {text sealed : Bytes}
    (h : ss.encryptAndHash S text = .ok (sealed, ss')) :
    decryptOr S cause ss sealed = .ok (text, ss') :=
  Attempt.bind_of_ok (SymmetricState.decryptAndHash_of_encryptAndHash hS h)

end Handshake

/-! ### Certificates -/

namespace CertificateMessage

@[simp] theorem length_encode (m : CertificateMessage) : m.encode.length = encodedLength := by
  simp [encode, encodedLength, FixedBytes.length_eq]

theorem encode_eq_written (m : CertificateMessage) : m.encode
    = Fields.written layout (m.version, m.validFrom, m.notValidAfter, m.signature, ()) := by
  show _ = Bytes.ofNatLE 2 _ ++ (Bytes.ofNatLE 4 _ ++ (Bytes.ofNatLE 4 _ ++ (m.signature.toBytes ++ [])))
  rw [encode, List.append_nil, List.append_assoc, List.append_assoc]

/-- **A certificate is read from exactly the bytes that write it.** -/
theorem decode_eq_ok_iff {bs : Bytes} {m : CertificateMessage} : decode bs = .ok m ↔ bs = m.encode := by
  rw [encode_eq_written]
  constructor
  · intro h
    unfold decode at h
    split at h
    · rename_i hparts
      cases h
      exact Fields.decode_end_eq_ok_iff.1 ⟨_, hparts⟩
    · cases h
  · intro h
    obtain ⟨c, hc⟩ : ∃ c, decodeParts (Cursor.ofBytes bs)
        = .ok (m.version, m.validFrom, m.notValidAfter, m.signature, ()) c :=
      Fields.decode_end_eq_ok_iff.2 h
    rw [decode, hc]

/-- The 42 bytes that a certificate which travels is signed over, for a static key. -/
def signedBytes (m : CertificateMessage) (staticKey : Key) : Bytes :=
  Bytes.ofNatLE 2 m.version.toNat ++ Bytes.ofNatLE 4 m.validFrom.toNat
    ++ Bytes.ofNatLE 4 m.notValidAfter.toNat ++ staticKey.toBytes

/-- A certificate that is issued has a window and the authority's signature. -/
theorem issue_eq_ok {S : Suite} {authority : AuthorityKeyPair} {staticKey : Key}
    {config : CertificateConfig} {now : UInt32} {m : CertificateMessage}
    (h : issue S authority staticKey config now = .ok m) :
    m.validFrom < m.notValidAfter ∧
      m.signature = S.sign authority.privateKey (m.signedBytes staticKey) := by
  obtain ⟨_, -, hrest⟩ := Attempt.bind_eq_ok_iff.1 h
  obtain ⟨c, hc, hm⟩ := Attempt.bind_eq_ok_iff.1 hrest
  unfold Certificate.make at hc
  split at hc
  · rename_i hwindow
    cases hc
    cases hm
    exact ⟨hwindow, rfl⟩
  · cases hc

/-- **A certificate is accepted exactly if its signature is right and its window holds the time.** What is
accepted has the parts of what travelled and the static key. -/
theorem verify_eq_ok_iff {S : Suite} {authority staticKey : Key} {m : CertificateMessage} {now : UInt32}
    {c : Certificate} :
    m.verify S authority staticKey now = .ok c ↔
      (c.version, c.validFrom, c.notValidAfter, c.staticKey)
          = (m.version, m.validFrom, m.notValidAfter, staticKey) ∧
        S.verify authority c.signedBytes m.signature = true ∧ c.validFrom ≤ now ∧ now < c.notValidAfter := by
  have hvalid {c : Certificate} : c.isValidAt now = true ↔ c.validFrom ≤ now ∧ now < c.notValidAfter := by
    simp [Certificate.isValidAt]
  unfold verify
  constructor
  · intro h
    split at h
    · dsimp only at h
      split at h
      · rename_i hsig
        split at h
        · rename_i hnow
          cases h
          exact ⟨rfl, hsig, hvalid.1 hnow⟩
        · cases h
      · cases h
    · cases h
  · rintro ⟨hparts, hsig, hnow⟩
    cases c with
    | mk version validFrom notValidAfter key hwindow =>
      cases hparts
      rw [dif_pos hwindow]
      exact (if_pos hsig).trans (if_pos (hvalid.2 hnow))

end CertificateMessage

/-- The authority's public key accepts its signature of a text. -/
def AuthorityKeyPair.Accepts (S : Suite) (a : AuthorityKeyPair) (text : Bytes) : Prop :=
  S.verify a.publicKey text (S.sign a.privateKey text) = true

/-- A certificate is accepted from the authority that issued it, inside its window. -/
theorem CertificateMessage.verify_of_issue {S : Suite} {authority : AuthorityKeyPair} {staticKey : Key}
    {config : CertificateConfig} {issued now : UInt32} {m : CertificateMessage}
    (hissue : issue S authority staticKey config issued = .ok m)
    (hsign : authority.Accepts S (m.signedBytes staticKey)) (hfrom : m.validFrom ≤ now)
    (huntil : now < m.notValidAfter) :
    ∃ h, m.verify S authority.publicKey staticKey now
      = .ok ⟨m.version, m.validFrom, m.notValidAfter, staticKey, h⟩ := by
  obtain ⟨hwindow, hsignature⟩ := issue_eq_ok hissue
  have hsig : S.verify authority.publicKey (m.signedBytes staticKey) m.signature = true := by
    rw [hsignature]
    exact hsign
  exact ⟨hwindow, verify_eq_ok_iff.2 ⟨rfl, hsig, hfrom, huntil⟩⟩

/-! ### The two transcripts -/

namespace Handshake

variable {S : Suite}

/-- The parts of message 2 as the initiator cuts it. -/
theorem cut_secondMessage (e : Key) {sealedKey : Bytes} (sealedCertificate : Bytes)
    (hkey : sealedKey.length = sealedKeyLength) :
    FixedBytes.padded 32 (e.toBytes ++ sealedKey ++ sealedCertificate) = e ∧
      ((e.toBytes ++ sealedKey ++ sealedCertificate).drop 32).take sealedKeyLength = sealedKey ∧
        (e.toBytes ++ sealedKey ++ sealedCertificate).drop (32 + sealedKeyLength) = sealedCertificate := by
  have hfront : (e.toBytes ++ sealedKey).length = 32 + sealedKeyLength := by
    rw [List.length_append, e.length_eq, hkey]
  refine ⟨?_, ?_, List.drop_left' hfront⟩
  · rw [List.append_assoc, FixedBytes.padded_append]
  · rw [List.append_assoc, List.drop_left' e.length_eq, List.take_left' hkey]

/-- What both sides know of message 2, from the same state on: the secrets, the sealed parts, and the
states that sealing them leads to. -/
structure SecondTranscript (S : Suite) (static ei er : KeyPair) (certificate : CertificateMessage)
    (ss : SymmetricState) where
  /-- The secret of the two fresh keys. -/
  freshSecret : Key
  /-- The secret of the initiator's fresh key and the responder's static one. -/
  staticSecret : Key
  /-- The responder's static key, sealed. -/
  sealedKey : Bytes
  /-- The state behind it. -/
  keySealed : SymmetricState
  /-- The responder's certificate, sealed. -/
  sealedCertificate : Bytes
  /-- The state behind it. -/
  certificateSealed : SymmetricState
  /-- The initiator computes the first secret. -/
  fresh_initiator : S.agree ei.privateKey er.publicKey = some freshSecret
  /-- So does the responder. -/
  fresh_responder : S.agree er.privateKey ei.publicKey = some freshSecret
  /-- The initiator computes the second secret. -/
  static_initiator : S.agree ei.privateKey static.publicKey = some staticSecret
  /-- So does the responder. -/
  static_responder : S.agree static.privateKey ei.publicKey = some staticSecret
  /-- The key is sealed under the first secret. -/
  key_eq : ((ss.mixHash S er.publicKey.toBytes).mixKey S freshSecret.toBytes).encryptAndHash S
    static.publicKey.toBytes = .ok (sealedKey, keySealed)
  /-- The certificate is sealed under both. -/
  certificate_eq : (keySealed.mixKey S staticSecret.toBytes).encryptAndHash S certificate.encode
    = .ok (sealedCertificate, certificateSealed)
  /-- The sealed key is as long as the initiator takes it to be. -/
  length_key : sealedKey.length = sealedKeyLength
  /-- So is the sealed certificate. -/
  length_certificate : sealedCertificate.length = sealedCertificateLength

section

variable {static ei er : KeyPair} {certificate : CertificateMessage} {ss : SymmetricState}

/-- With agreeing keys there is a message 2. -/
theorem exists_secondTranscript (hS : S.Sealing) (hee : ei.Agree S er) (hes : ei.Agree S static)
    (certificate : CertificateMessage) (ss : SymmetricState) :
    Nonempty (SecondTranscript S static ei er certificate ss) := by
  obtain ⟨freshSecret, hei, her⟩ := hee
  obtain ⟨staticSecret, hsi, hsr⟩ := hes
  obtain ⟨sealedKey, keySealed, hkey, hkeyLength⟩ :=
    SymmetricState.encryptAndHash_mixKey hS (ss.mixHash S er.publicKey.toBytes) freshSecret.toBytes
      (Aead.takes_toBytes static.publicKey (by decide))
  obtain ⟨sealedCertificate, certificateSealed, hcert, hcertLength⟩ :=
    SymmetricState.encryptAndHash_mixKey hS keySealed staticSecret.toBytes
      (Aead.takes_of_le (Nat.le_of_eq certificate.length_encode) (by decide))
  rw [FixedBytes.length_eq] at hkeyLength
  rw [CertificateMessage.length_encode] at hcertLength
  exact ⟨⟨freshSecret, staticSecret, sealedKey, keySealed, sealedCertificate, certificateSealed,
    hei, her, hsi, hsr, hkey, hcert, hkeyLength, hcertLength⟩⟩

namespace SecondTranscript

variable (t : SecondTranscript S static ei er certificate ss)

/-- The bytes of message 2. -/
def message : Bytes := er.publicKey.toBytes ++ t.sealedKey ++ t.sealedCertificate

/-- The first of the two keys that both sides split off, which the initiator sends under. -/
def initiatorKey : Key := (S.derive t.certificateSealed.chainingKey []).1

/-- The second, which the responder sends under. -/
def responderKey : Key := (S.derive t.certificateSealed.chainingKey []).2

theorem length_message : t.message.length = secondMessageLength := by
  rw [message, List.length_append, List.length_append, FixedBytes.length_eq, t.length_key,
    t.length_certificate, secondMessageLength]

/-- The responder writes the message. -/
theorem responder (payload : Bytes) :
    Responder.secondMessage S static certificate ss er ei.publicKey payload
      = .ok (t.message,
          .established (.ofKey t.responderKey) (.ofKey t.initiatorKey) t.certificateSealed.hash payload) := by
  unfold Responder.secondMessage
  rw [Attempt.bind_of_ok (mixAgreement_eq_ok_iff.2 ⟨_, t.fresh_responder, rfl⟩), Attempt.bind_of_ok t.key_eq]
  dsimp only
  rw [Attempt.bind_of_ok (mixAgreement_eq_ok_iff.2 ⟨_, t.static_responder, rfl⟩),
    Attempt.bind_of_ok t.certificate_eq]
  rfl

/-- The initiator reads it, and its check of the certificate decides. -/
theorem initiator (hS : S.Sealing) (authority : Key) (now : UInt32) :
    Initiator.secondMessage S authority now ss ei t.message
      = (certificate.verify S authority static.publicKey now).map
          (.established (.ofKey t.initiatorKey) (.ofKey t.responderKey) t.certificateSealed.hash
            static.publicKey) := by
  obtain ⟨hremote, hkey, hcert⟩ :
      FixedBytes.padded 32 t.message = er.publicKey ∧
        (t.message.drop 32).take sealedKeyLength = t.sealedKey ∧
          t.message.drop (32 + sealedKeyLength) = t.sealedCertificate :=
    cut_secondMessage er.publicKey t.sealedCertificate t.length_key
  have hstatic : FixedBytes.padded 32 static.publicKey.toBytes = static.publicKey :=
    (FixedBytes.padded_eq_iff static.publicKey.length_eq).2 rfl
  -- The same steps as the responder's, from the same states.
  unfold Initiator.secondMessage
  rw [if_neg (not_not_intro t.length_message), hremote, hkey, hcert,
    Attempt.bind_of_ok (mixAgreement_eq_ok_iff.2 ⟨_, t.fresh_initiator, rfl⟩)]
  dsimp only
  rw [Attempt.bind_of_ok (decryptOr_of_encryptAndHash hS _ t.key_eq)]
  dsimp only
  rw [hstatic, Attempt.bind_of_ok (mixAgreement_eq_ok_iff.2 ⟨_, t.static_initiator, rfl⟩),
    Attempt.bind_of_ok (decryptOr_of_encryptAndHash hS _ t.certificate_eq)]
  dsimp only
  rw [Attempt.bind_of_ok (CertificateMessage.decode_eq_ok_iff.2 rfl)]
  cases certificate.verify S authority static.publicKey now with
  | ok c => rfl
  | error e => rfl

end SecondTranscript

end

/-- The state of both sides after message 1: its key and its payload are hashed. -/
def afterFirst (S : Suite) (ephemeral : Key) (payload : Bytes) : SymmetricState :=
  ((start S).mixHash S ephemeral.toBytes).mixHash S payload

end Handshake

/-- Message 1 is a fresh public key with the payload behind it. -/
theorem Initiator.firstMessage_eq_ok_iff {S : Suite} {payload message : Bytes} {entropy rest : Entropy}
    {ss : SymmetricState} {e : KeyPair} :
    Initiator.firstMessage S payload entropy = .ok (message, ss, e) rest ↔
      32 + payload.length ≤ maxNoiseMessage ∧ KeyPair.generate S entropy = .ok e rest ∧
        message = e.publicKey.toBytes ++ payload ∧ ss = Handshake.afterFirst S e.publicKey payload := by
  unfold Initiator.firstMessage
  by_cases hlen : maxNoiseMessage < 32 + payload.length
  · rw [if_pos hlen]
    exact ⟨fun h => (nomatch h), fun ⟨h, _⟩ => absurd hlen (Nat.not_lt.2 h)⟩
  · rw [if_neg hlen]
    constructor
    · intro h
      obtain ⟨e', rest', hgen, hres⟩ := Step.bind_eq_ok_iff.1 h
      cases hres
      exact ⟨Nat.le_of_not_lt hlen, hgen, rfl, rfl⟩
    · rintro ⟨-, hgen, rfl, rfl⟩
      exact Step.bind_of_ok hgen

/-- The responder reads message 1 as it was written, and answers from the initiator's state. -/
theorem Responder.answer_eq_ok_iff {S : Suite} {static : KeyPair} {certificate : CertificateMessage}
    {ephemeral : Key} {payload second : Bytes} {entropy rest : Entropy} {phase : Responder.Phase} :
    Responder.answer S static certificate (ephemeral.toBytes ++ payload) entropy = .ok (second, phase) rest ↔
      32 + payload.length ≤ maxNoiseMessage ∧ ∃ e, KeyPair.generate S entropy = .ok e rest ∧
        Responder.secondMessage S static certificate (Handshake.afterFirst S ephemeral payload) e
          ephemeral payload = .ok (second, phase) := by
  have hlength : (ephemeral.toBytes ++ payload).length = 32 + payload.length := by
    rw [List.length_append, ephemeral.length_eq]
  unfold Responder.answer
  rw [hlength, FixedBytes.padded_append, List.drop_left' ephemeral.length_eq]
  by_cases hlen : maxNoiseMessage < 32 + payload.length
  · rw [if_pos (.inr hlen)]
    exact ⟨fun h => (nomatch h), fun ⟨h, _⟩ => absurd hlen (Nat.not_lt.2 h)⟩
  · have hrange : ¬ (32 + payload.length < Handshake.firstMessageMin ∨
        maxNoiseMessage < 32 + payload.length) := by
      rintro (h | h)
      · exact absurd h (Nat.not_lt.2 (Nat.le_add_right 32 _))
      · exact hlen h
    rw [if_neg hrange]
    constructor
    · intro h
      obtain ⟨_, _, hfirst, h⟩ := Step.bind_eq_ok_iff.1 h
      obtain ⟨hfirst, rfl⟩ := Step.ofExcept_eq_ok_iff.1 hfirst
      cases hfirst
      obtain ⟨e, _, hgen, h⟩ := Step.bind_eq_ok_iff.1 h
      obtain ⟨hsecond, rfl⟩ := Step.ofExcept_eq_ok_iff.1 h
      exact ⟨Nat.le_of_not_lt hlen, e, hgen, hsecond⟩
    · rintro ⟨-, e, hgen, hsecond⟩
      refine Step.bind_eq_ok_iff.2 ⟨(payload, Handshake.afterFirst S ephemeral payload), entropy, rfl, ?_⟩
      exact Step.bind_eq_ok_iff.2 ⟨e, rest, hgen, Step.ofExcept_eq_ok_iff.2 ⟨hsecond, rfl⟩⟩

/-! ### Runs -/

/-- A handshake that nobody interferes with: each side reads what the other wrote, and nothing fails. -/
structure Handshake.Run (S : Suite) (i₀ : Initiator) (r₀ : Responder) (payload : Bytes)
    (ea eb : Entropy) where
  /-- Message 1. -/
  first : Bytes
  /-- Message 2. -/
  second : Bytes
  /-- The initiator between the messages. -/
  waiting : Initiator
  /-- The initiator afterwards. -/
  initiator : Initiator
  /-- The responder afterwards. -/
  responder : Responder
  /-- The random bytes that the initiator leaves. -/
  restA : Entropy
  /-- The random bytes that the responder leaves. -/
  restB : Entropy
  /-- The initiator writes message 1. -/
  wrote : i₀.writeFirstMessage S payload ea = (.ok first, waiting, restA)
  /-- The responder reads it and writes message 2. -/
  answered : r₀.respond S first eb = (.ok second, responder, restB)
  /-- The initiator reads it. -/
  read : waiting.readSecondMessage S second = (.ok (), initiator)

theorem Initiator.writeFirstMessage_eq_ok_iff {S : Suite} {i i' : Initiator} {payload first : Bytes}
    {entropy rest : Entropy} :
    i.writeFirstMessage S payload entropy = (.ok first, i', rest) ↔
      i.phase = .uninitialized ∧ ∃ ss e, Initiator.firstMessage S payload entropy = .ok (first, ss, e) rest ∧
        i' = { i with phase := .awaitingSecondMessage ss e } := by
  unfold Initiator.writeFirstMessage
  constructor
  · intro h
    split at h
    · cases h
    · rename_i hphase
      split at h
      · rename_i hfirst
        cases h
        exact ⟨hphase, _, _, hfirst, rfl⟩
      · cases h
    · cases h
  · rintro ⟨hphase, ss, e, hfirst, rfl⟩
    rw [hphase, hfirst]

theorem Responder.respond_eq_ok_iff {S : Suite} {r r' : Responder} {first second : Bytes}
    {entropy rest : Entropy} :
    r.respond S first entropy = (.ok second, r', rest) ↔
      r.phase = .awaitingFirstMessage ∧ ∃ phase,
        Responder.answer S r.staticKeys r.certificate first entropy = .ok (second, phase) rest ∧
          r' = { r with phase } := by
  unfold Responder.respond
  constructor
  · intro h
    split at h
    · cases h
    · rename_i hphase
      split at h
      · rename_i hanswer
        cases h
        exact ⟨hphase, _, hanswer, rfl⟩
      · cases h
    · cases h
  · rintro ⟨hphase, phase, hanswer, rfl⟩
    rw [hphase, hanswer]

theorem Initiator.readSecondMessage_eq_ok_iff {S : Suite} {i i' : Initiator} {second : Bytes} :
    i.readSecondMessage S second = (.ok (), i') ↔
      ∃ ss e phase, i.phase = .awaitingSecondMessage ss e ∧
        Initiator.secondMessage S i.authority i.clock ss e second = .ok phase ∧
          i' = { i with phase } := by
  unfold Initiator.readSecondMessage
  constructor
  · intro h
    split at h
    · cases h
    · rename_i ss e hphase
      split at h
      · rename_i hsecond
        cases h
        exact ⟨ss, e, _, hphase, hsecond, rfl⟩
      · cases h
    · cases h
  · rintro ⟨ss, e, phase, hphase, hsecond, rfl⟩
    rw [hphase]
    simp only [hsecond]

section

variable {S : Suite} {i₀ : Initiator} {r₀ : Responder} {payload : Bytes} {ea eb : Entropy}

/-- **The two ends of a run**: the ciphers of one are those of the other the other way round, both unused,
the hashes are one, and the initiator has accepted the certificate. -/
theorem Handshake.Run.mirror (hS : S.Sealing) (run : Handshake.Run S i₀ r₀ payload ea eb)
    (hee : (KeyPair.ofEntropy S ea).Agree S (.ofEntropy S eb))
    (hes : (KeyPair.ofEntropy S ea).Agree S r₀.staticKeys) :
    run.first.length = 32 + payload.length ∧ run.second.length = secondMessageLength ∧
      ∃ k₁ k₂ hash c, r₀.certificate.verify S i₀.authority r₀.staticKeys.publicKey i₀.clock = .ok c ∧
        run.initiator.phase = .established (.ofKey k₁) (.ofKey k₂) hash r₀.staticKeys.publicKey c ∧
        run.responder.phase = .established (.ofKey k₂) (.ofKey k₁) hash payload := by
  obtain ⟨first, second, waiting, initiator, responder, restA, restB, wrote, answered, read⟩ := run
  obtain ⟨-, ss, ei, hfirst, rfl⟩ := Initiator.writeFirstMessage_eq_ok_iff.1 wrote
  obtain ⟨-, hgen, rfl, rfl⟩ := Initiator.firstMessage_eq_ok_iff.1 hfirst
  obtain ⟨-, rfl, -⟩ := KeyPair.generate_eq_ok_iff.1 hgen
  obtain ⟨-, phase, hanswer, rfl⟩ := Responder.respond_eq_ok_iff.1 answered
  obtain ⟨-, er, hgen', hsecond⟩ := Responder.answer_eq_ok_iff.1 hanswer
  obtain ⟨-, rfl, -⟩ := KeyPair.generate_eq_ok_iff.1 hgen'
  obtain ⟨t⟩ := exists_secondTranscript hS hee hes r₀.certificate
    (afterFirst S (KeyPair.ofEntropy S ea).publicKey payload)
  cases (t.responder payload).symm.trans hsecond
  obtain ⟨ss, ei, phase, hwaiting, hread, rfl⟩ := Initiator.readSecondMessage_eq_ok_iff.1 read
  cases hwaiting
  rw [t.initiator hS] at hread
  refine ⟨by simp [FixedBytes.length_eq], t.length_message, t.initiatorKey, t.responderKey,
    t.certificateSealed.hash, ?_⟩
  cases hverify : r₀.certificate.verify S i₀.authority r₀.staticKeys.publicKey i₀.clock with
  | error e =>
    rw [hverify] at hread
    cases hread
  | ok c =>
    rw [hverify] at hread
    cases hread
    exact ⟨c, rfl, rfl, rfl⟩

/-- Two sides that have not begun run through, if the initiator will accept the certificate. -/
theorem Handshake.exists_run (hS : S.Sealing) {c : Certificate} (hi : i₀.phase = .uninitialized)
    (hr : r₀.phase = .awaitingFirstMessage)
    (hverify : r₀.certificate.verify S i₀.authority r₀.staticKeys.publicKey i₀.clock = .ok c)
    (hpayload : 32 + payload.length ≤ maxNoiseMessage) (ha : 32 ≤ ea.length) (hb : 32 ≤ eb.length)
    (hee : (KeyPair.ofEntropy S ea).Agree S (.ofEntropy S eb))
    (hes : (KeyPair.ofEntropy S ea).Agree S r₀.staticKeys) :
    Nonempty (Handshake.Run S i₀ r₀ payload ea eb) := by
  have hgen : KeyPair.generate S ea = .ok (.ofEntropy S ea) (ea.drop 32) :=
    KeyPair.generate_eq_ok_iff.2 ⟨ha, rfl, rfl⟩
  have hgen' : KeyPair.generate S eb = .ok (.ofEntropy S eb) (eb.drop 32) :=
    KeyPair.generate_eq_ok_iff.2 ⟨hb, rfl, rfl⟩
  have hfirst := Initiator.firstMessage_eq_ok_iff.2 ⟨hpayload, hgen, rfl, rfl⟩
  obtain ⟨t⟩ := exists_secondTranscript hS hee hes r₀.certificate
    (afterFirst S (KeyPair.ofEntropy S ea).publicKey payload)
  have hanswer := Responder.answer_eq_ok_iff.2 ⟨hpayload, _, hgen', t.responder payload⟩
  have hread := t.initiator hS i₀.authority i₀.clock
  rw [hverify] at hread
  have wrote := Initiator.writeFirstMessage_eq_ok_iff.2 ⟨hi, _, _, hfirst, rfl⟩
  have answered := Responder.respond_eq_ok_iff.2 ⟨hr, _, hanswer, rfl⟩
  exact ⟨⟨_, _, _, _, _, _, _, wrote, answered,
    Initiator.readSecondMessage_eq_ok_iff.2 ⟨_, _, _, rfl, hread, rfl⟩⟩⟩

/-- **Both sides of a handshake agree.** With a certificate that the authority issued for the responder's
static key, and a clock inside its window, the handshake succeeds for every payload that fits, and leaves
both sides established with one hash and with each other's ciphers; each knows of the other what it said. -/
theorem handshake_agrees (hS : S.Sealing) {authority : AuthorityKeyPair} {static : KeyPair}
    {config : CertificateConfig} {issued clock : UInt32} {certificate : CertificateMessage}
    (hissue : CertificateMessage.issue S authority static.publicKey config issued = .ok certificate)
    (hsign : authority.Accepts S (certificate.signedBytes static.publicKey))
    (hfrom : certificate.validFrom ≤ clock) (huntil : clock < certificate.notValidAfter)
    (hi : Initiator.make authority.publicKey (some clock) = .ok i₀)
    (hr : Responder.make (some static) certificate = .ok r₀)
    (hpayload : payload.length ≤ 65503) (ha : 32 ≤ ea.length) (hb : 32 ≤ eb.length)
    (hee : (KeyPair.ofEntropy S ea).Agree S (.ofEntropy S eb))
    (hes : (KeyPair.ofEntropy S ea).Agree S static) :
    ∃ run : Handshake.Run S i₀ r₀ payload ea eb,
      run.first.length = 32 + payload.length ∧ run.second.length = 170 ∧
        ∃ toResponder toInitiator hash c,
          run.initiator.phase
            = .established (.ofKey toResponder) (.ofKey toInitiator) hash static.publicKey c ∧
          run.responder.phase
            = .established (.ofKey toInitiator) (.ofKey toResponder) hash payload ∧
          (c.version, c.validFrom, c.notValidAfter, c.staticKey) = (certificate.version,
            certificate.validFrom, certificate.notValidAfter, static.publicKey) := by
  cases hi
  cases hr
  obtain ⟨_, hverify⟩ := CertificateMessage.verify_of_issue hissue hsign hfrom huntil
  have hfits : 32 + payload.length ≤ maxNoiseMessage := by
    rw [maxNoiseMessage]
    omega
  obtain ⟨run⟩ : Nonempty (Handshake.Run S ⟨authority.publicKey, clock, .uninitialized⟩
      ⟨static, certificate, .awaitingFirstMessage⟩ payload ea eb) :=
    Handshake.exists_run hS rfl rfl hverify hfits ha hb hee hes
  obtain ⟨hfirst, hsecond, k₁, k₂, hash, c, hverify', hinitiator, hresponder⟩ := run.mirror hS hee hes
  cases hverify.symm.trans hverify'
  exact ⟨run, hfirst, hsecond, k₁, k₂, hash, _, hinitiator, hresponder, rfl⟩

end

/-! ### A handshake on the suite of the protocol

Keys for which the assumptions hold, by computation. The public keys are written out, since a computation
with a key that is itself a computation goes too deep.
-/

namespace Handshake.Sample

/-- The random bytes of the initiator. -/
def initiatorEntropy : Entropy := List.replicate 32 1

/-- The random bytes of the responder. -/
def responderEntropy : Entropy := List.replicate 32 2

/-- The key pair that the initiator draws. -/
def initiatorKeys : KeyPair where
  privateKey := .ofNatLE 32 29402108933789112367357730507108007974506790223922456947274033586323039781120
  publicKey := .ofNatLE 32 4358756744656299921611720742713659245005038656318957406234335445765305065636

/-- The key pair that the responder draws. -/
def responderKeys : KeyPair where
  privateKey := .ofNatLE 32 29856195558249175878822714762044038985696084281434772884683671170667797152256
  publicKey := .ofNatLE 32 40477307152345293097440037870896525068212056681688608823036027849291427646926

/-- The static key pair of the responder. -/
def static : KeyPair where
  privateKey := .replicate 32 3
  publicKey := .ofNatLE 32 15802149683617856654984624172569149204113031298912155629771906983150109982301

/-- The authority. -/
def authority : AuthorityKeyPair where
  privateKey := .replicate 32 4
  publicKey := .ofNatLE 32 56424004656996461975479421710858406196306979204371176730929128320883554554826

/-- The certificate that the authority issues in second 1000. -/
def certificate : CertificateMessage :=
  .sign Suite.standard authority ⟨0, 1000, 87400, static.publicKey, by decide⟩

/-- The initiator, whose clock shows second 2000. -/
def initiator : Initiator := ⟨authority.publicKey, 2000, .uninitialized⟩

/-- The responder. -/
def responder : Responder := ⟨static, certificate, .awaitingFirstMessage⟩

theorem ofEntropy_initiator : KeyPair.ofEntropy Suite.standard initiatorEntropy = initiatorKeys := by
  decide +kernel

theorem ofEntropy_responder : KeyPair.ofEntropy Suite.standard responderEntropy = responderKeys := by
  decide +kernel

theorem ephemeral_agree : (KeyPair.ofEntropy Suite.standard initiatorEntropy).Agree Suite.standard
    (.ofEntropy Suite.standard responderEntropy) := by
  rw [ofEntropy_initiator, ofEntropy_responder]
  exact ⟨.ofNatLE 32 37870191047867657583432095346284531764084119257177089722230817295622394795822,
    by decide +kernel, by decide +kernel⟩

theorem static_agree :
    (KeyPair.ofEntropy Suite.standard initiatorEntropy).Agree Suite.standard static := by
  rw [ofEntropy_initiator]
  exact ⟨.ofNatLE 32 15274884977273484924445795917531421429620176646336427756984514577179290704304,
    by decide +kernel, by decide +kernel⟩

theorem accepts : authority.Accepts Suite.standard (certificate.signedBytes static.publicKey) := by
  unfold AuthorityKeyPair.Accepts
  decide +kernel

theorem issue_eq : CertificateMessage.issue Suite.standard authority static.publicKey {} 1000
    = .ok certificate := rfl

/-- The initiator accepts the certificate. -/
theorem exists_verify :
    ∃ c, certificate.verify Suite.standard authority.publicKey static.publicKey 2000 = .ok c := by
  obtain ⟨_, hverify⟩ := CertificateMessage.verify_of_issue issue_eq accepts (show _ ≤ (2000 : UInt32) by decide) (by decide)
  exact ⟨_, hverify⟩

end Handshake.Sample

open Handshake.Sample in
/-- The assumptions can be met: a handshake on the suite of the protocol. -/
theorem handshake_agrees_on_sample :
    ∃ run : Handshake.Run Suite.standard initiator responder [1, 2, 3] initiatorEntropy responderEntropy,
      run.first.length = 35 ∧ run.second.length = 170 ∧
        ∃ toResponder toInitiator hash c,
          run.initiator.phase
            = .established (.ofKey toResponder) (.ofKey toInitiator) hash static.publicKey c ∧
          run.responder.phase
            = .established (.ofKey toInitiator) (.ofKey toResponder) hash [1, 2, 3] ∧
          (c.version, c.validFrom, c.notValidAfter, c.staticKey)
            = (certificate.version, certificate.validFrom, certificate.notValidAfter, static.publicKey) :=
  handshake_agrees Suite.standard_exact.toSealing issue_eq accepts (by decide) (by decide) rfl rfl
    (by decide) (by decide) (by decide) ephemeral_agree static_agree

end Stratum
