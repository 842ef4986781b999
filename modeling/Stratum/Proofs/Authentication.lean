import Stratum.Proofs.HandshakeRuns

/-!
# No session without an authenticated peer

An initiator talks to whoever answers, and message 2 may be any byte string. This
module shows what an initiator has found when it lets somebody in:

* **`Initiator.secondMessage_eq_ok_iff`**: message 2 is accepted if and only if it has a
  `Initiator.Reading`: it is as long as it has to be, both sealed parts open, and the
  authority's signature covers the static key that was opened first and mixed into
  the keys of the session, in a window that holds the time;
* `Initiator.Authentication`: where in a run of calls the reading is that an established
  phase is owed to, and that there is no other;
* **`Initiator.authentication_of_established`**: every established initiator has one, and so
  does every initiator that hands out its session.

What is assumed of the suite is that nothing opens but what was sealed (`Suite.Exact`):
it makes the opened key as long as a key.
-/

namespace Stratum

/-! ### What is signed -/

/-- The bytes that are signed say which certificate it is. -/
theorem Certificate.signedBytes_injective : Function.Injective Certificate.signedBytes := by
  intro c d h
  have hwritten : ∀ c : Certificate, c.signedBytes
      = Fields.written [.u16, .u32, .u32, .u256] (c.version, c.validFrom, c.notValidAfter, c.staticKey, ()) := by
    intro c
    show _ = Bytes.ofNatLE 2 _ ++ (Bytes.ofNatLE 4 _ ++ (Bytes.ofNatLE 4 _ ++ (c.staticKey.toBytes ++ [])))
    rw [Certificate.signedBytes, List.append_nil, List.append_assoc, List.append_assoc]
  rw [hwritten c, hwritten d] at h
  cases c
  cases d
  cases Fields.written_inj h
  rfl

/-! ### What is opened -/

/-- A sealed part is longer than what it opens to by a tag, once a secret is mixed in. -/
theorem SymmetricState.length_of_decryptAndHash {S : Suite} (hS : S.Exact) {ss ss' : SymmetricState}
    {material sealed text : Bytes}
    (h : (ss.mixKey S material).decryptAndHash S sealed = .ok (some (text, ss'))) :
    sealed.length = text.length + Aead.tagLength := by
  obtain ⟨opened, hopened, hss⟩ := Attempt.bind_eq_ok_iff.1 h
  obtain ⟨found, hfound, hcipher⟩ := Attempt.bind_eq_ok_iff.1 hopened
  cases found with
  | none =>
    cases hcipher
    cases hss
  | some r =>
    cases hcipher
    cases hss
    obtain ⟨-, htext, -⟩ := KeyedCipher.decrypt_eq_ok_iff.1 hfound
    obtain ⟨-, -, rfl⟩ := Suite.sealText_eq_ok_iff.1 (hS.openSealed_eq_some_iff.1 htext)
    exact hS.length_encrypt _ _ _ _

theorem Handshake.decryptOr_eq_ok_iff {S : Suite} {cause : HandshakeFault} {ss ss' : SymmetricState}
    {sealed text : Bytes} :
    decryptOr S cause ss sealed = .ok (text, ss') ↔ ss.decryptAndHash S sealed = .ok (some (text, ss')) := by
  constructor
  · intro h
    obtain ⟨opened, hopened, hsome⟩ := Attempt.bind_eq_ok_iff.1 h
    cases opened with
    | none => cases hsome
    | some r =>
      cases hsome
      exact hopened
  · exact Attempt.bind_of_ok

/-- Whatever is as long as message 2 has its parts. -/
theorem Handshake.exists_parts {message : Bytes} (h : message.length = 170) :
    ∃ (e : Key) (sealedKey sealedCertificate : Bytes),
      message = e.toBytes ++ sealedKey ++ sealedCertificate ∧ sealedKey.length = sealedKeyLength := by
  refine ⟨⟨message.take 32, by rw [List.length_take]; omega⟩, (message.drop 32).take sealedKeyLength,
    message.drop (32 + sealedKeyLength), ?_, ?_⟩
  · rw [List.append_assoc, ← List.drop_drop, List.take_append_drop, List.take_append_drop]
  · rw [List.length_take, List.length_drop, h]
    rfl

namespace Initiator

variable {S : Suite}

/-! ### Readings of message 2 -/

/-- What an initiator that trusts an authority finds in message 2 when its clock shows a time. -/
structure Reading (S : Suite) (authority : Key) (now : UInt32) (ss : SymmetricState) (ephemeral : KeyPair)
    (message : Bytes) where
  /-- The responder's fresh key. -/
  remoteEphemeral : Key
  /-- The responder's static key, sealed. -/
  sealedKey : Bytes
  /-- The responder's certificate, sealed. -/
  sealedCertificate : Bytes
  /-- The secret of the two fresh keys. -/
  freshSecret : Key
  /-- The responder's static key. -/
  remoteStatic : Key
  /-- The state behind it. -/
  keyOpened : SymmetricState
  /-- The secret of the fresh key and the static one. -/
  staticSecret : Key
  /-- What travelled of the certificate. -/
  signed : CertificateMessage
  /-- The state behind it. -/
  certificateOpened : SymmetricState
  /-- The certificate. -/
  certificate : Certificate
  /-- The message has three parts. -/
  message_eq : message = remoteEphemeral.toBytes ++ sealedKey ++ sealedCertificate
  /-- It has 170 bytes. -/
  length_message : message.length = 170
  /-- The first 80 of them are the two keys. -/
  length_key : sealedKey.length = Handshake.sealedKeyLength
  /-- The fresh keys agree on the first secret. -/
  fresh : S.agree ephemeral.privateKey remoteEphemeral = some freshSecret
  /-- With it the static key opens. -/
  key_opened : ((ss.mixHash S remoteEphemeral.toBytes).mixKey S freshSecret.toBytes).decryptAndHash S
    sealedKey = .ok (some (remoteStatic.toBytes, keyOpened))
  /-- The static key agrees on the second secret. -/
  static : S.agree ephemeral.privateKey remoteStatic = some staticSecret
  /-- With it the certificate opens. -/
  certificate_opened : (keyOpened.mixKey S staticSecret.toBytes).decryptAndHash S sealedCertificate
    = .ok (some (signed.encode, certificateOpened))
  /-- The certificate is what travelled, for the static key that was opened. -/
  certificate_eq : (certificate.version, certificate.validFrom, certificate.notValidAfter,
    certificate.staticKey) = (signed.version, signed.validFrom, signed.notValidAfter, remoteStatic)
  /-- The authority has signed it. -/
  verified : S.verify authority certificate.signedBytes signed.signature = true
  /-- Its window holds the time. -/
  window : certificate.validFrom ≤ now ∧ now < certificate.notValidAfter

section

variable {authority : Key} {now : UInt32} {ss : SymmetricState} {ephemeral : KeyPair} {message : Bytes}

/-- The session that a reading leads to. -/
def Reading.session (r : Reading S authority now ss ephemeral message) (config : SessionConfig) : Session where
  role := .initiator
  sending := .ofCipher (.ofKey (S.derive r.certificateOpened.chainingKey []).1)
  receiving := .ofCipher (.ofKey (S.derive r.certificateOpened.chainingKey []).2)
  hash := r.certificateOpened.hash
  config

/-- The phase that a reading leads to. -/
def Reading.phase (r : Reading S authority now ss ephemeral message) : Phase :=
  .established (.ofKey (S.derive r.certificateOpened.chainingKey []).1)
    (.ofKey (S.derive r.certificateOpened.chainingKey []).2) r.certificateOpened.hash r.remoteStatic
    r.certificate

/-- **Message 2 is accepted exactly if it has a reading**, and the reading is what it establishes. -/
theorem secondMessage_eq_ok_iff (hS : S.Exact) {phase : Phase} :
    secondMessage S authority now ss ephemeral message = .ok phase ↔
      ∃ r : Reading S authority now ss ephemeral message, phase = r.phase := by
  constructor
  · intro h
    unfold secondMessage at h
    split at h
    · cases h
    · rename_i hlength
      have hlength : message.length = 170 := Decidable.not_not.1 hlength
      obtain ⟨e, sealedKey, sealedCertificate, rfl, hkeyLength⟩ := Handshake.exists_parts hlength
      obtain ⟨hremote, hkey, hcertificate⟩ := Handshake.cut_secondMessage e sealedCertificate hkeyLength
      rw [hremote, hkey, hcertificate] at h
      -- Each step succeeds, one after the other.
      obtain ⟨_, hmix, h⟩ := Attempt.bind_eq_ok_iff.1 h
      obtain ⟨freshSecret, hfresh, rfl⟩ := Handshake.mixAgreement_eq_ok_iff.1 hmix
      obtain ⟨⟨key, keyOpened⟩, hkeyPart, h⟩ := Attempt.bind_eq_ok_iff.1 h
      have hopened := Handshake.decryptOr_eq_ok_iff.1 hkeyPart
      obtain ⟨_, hmix', h⟩ := Attempt.bind_eq_ok_iff.1 h
      obtain ⟨staticSecret, hstatic, rfl⟩ := Handshake.mixAgreement_eq_ok_iff.1 hmix'
      obtain ⟨⟨payload, certificateOpened⟩, hcertPart, h⟩ := Attempt.bind_eq_ok_iff.1 h
      have hcertOpened := Handshake.decryptOr_eq_ok_iff.1 hcertPart
      obtain ⟨signed, hsigned, h⟩ := Attempt.bind_eq_ok_iff.1 h
      rw [CertificateMessage.decode_eq_ok_iff.1 hsigned] at hcertOpened
      obtain ⟨certificate, hverify, h⟩ := Attempt.bind_eq_ok_iff.1 h
      obtain ⟨hparts, hsignature, hwindow⟩ := CertificateMessage.verify_eq_ok_iff.1 hverify
      -- What opens to the static key is as long as a sealed key, so the key is whole.
      have hwhole : (FixedBytes.padded 32 key).toBytes = key :=
        FixedBytes.toBytes_padded (Nat.add_right_cancel
          ((SymmetricState.length_of_decryptAndHash hS hopened).symm.trans hkeyLength))
      cases h
      exact ⟨⟨e, sealedKey, sealedCertificate, freshSecret, FixedBytes.padded 32 key, keyOpened, staticSecret,
        signed, certificateOpened, _, rfl, hlength, hkeyLength, hfresh, by rw [hwhole]; exact hopened, hstatic,
        hcertOpened, hparts, hsignature, hwindow⟩, rfl⟩
  · rintro ⟨r, rfl⟩
    obtain ⟨hremote, hkey, hcertificate⟩ :=
      Handshake.cut_secondMessage r.remoteEphemeral r.sealedCertificate r.length_key
    rw [← r.message_eq] at hremote hkey hcertificate
    have hstatic : FixedBytes.padded 32 r.remoteStatic.toBytes = r.remoteStatic :=
      (FixedBytes.padded_eq_iff r.remoteStatic.length_eq).2 rfl
    have hverify : r.signed.verify S authority r.remoteStatic now = .ok r.certificate :=
      CertificateMessage.verify_eq_ok_iff.2 ⟨r.certificate_eq, r.verified, r.window⟩
    have hlength : message.length = Handshake.secondMessageLength := r.length_message
    unfold secondMessage
    rw [if_neg (not_not_intro hlength), hremote, hkey, hcertificate,
      Attempt.bind_of_ok (Handshake.mixAgreement_eq_ok_iff.2 ⟨_, r.fresh, rfl⟩)]
    dsimp only
    rw [Attempt.bind_of_ok (Handshake.decryptOr_eq_ok_iff.2 r.key_opened)]
    dsimp only
    rw [hstatic, Attempt.bind_of_ok (Handshake.mixAgreement_eq_ok_iff.2 ⟨_, r.static, rfl⟩),
      Attempt.bind_of_ok (Handshake.decryptOr_eq_ok_iff.2 r.certificate_opened)]
    dsimp only
    rw [Attempt.bind_of_ok (CertificateMessage.decode_eq_ok_iff.2 rfl), Attempt.bind_of_ok hverify]
    rfl

end

/-! ### The reading that an established phase is owed to -/

section

variable {i i₀ : Initiator}

/-- An initiator that is established at the beginning and at the end of some calls is so all the time. -/
theorem isEstablished_between {soon later : List Call} (h : i.isEstablished = true)
    (h' : ((i.run S soon).run S later).isEstablished = true) : (i.run S soon).isEstablished = true := by
  rw [isEstablished_iff_rank] at *
  have hfrom := rank_run_le (S := S) i soon
  have hto := rank_run_le (S := S) (i.run S soon) later
  omega

/-- An initiator that is established before some calls and after them is not changed by them. -/
theorem run_eq_of_established {calls : List Call} (h : i.isEstablished = true)
    (h' : (i.run S calls).isEstablished = true) : i.run S calls = i := by
  induction calls generalizing i with
  | nil => rfl
  | cons c calls ih =>
    have hnext : (i.run S [c]).isEstablished = true := isEstablished_between h h'
    obtain ⟨_, _, _, _, _, hphase⟩ := isEstablished_iff.1 hnext
    obtain ⟨_, _, _, _, -, -, hawaiting, -⟩ | hsame := (call_moves S i c).of_established hphase
    · rw [isEstablished_iff_rank, hawaiting] at h
      cases h
    · show (i.call S c).2.run S calls = i
      have h' : ((i.call S c).2.run S calls).isEstablished = true := h'
      rw [hsame] at h' ⊢
      exact ih h h'

theorem call_readSecond_of_found {message : Bytes} {now : UInt32} {ss : SymmetricState} {ephemeral : KeyPair}
    {phase : Phase} (hawaiting : i.phase = .awaitingSecondMessage ss ephemeral)
    (hfound : secondMessage S i.authority now ss ephemeral message = .ok phase) :
    i.call S (.readSecond message now) = (.ok .accepted, { i with clock := now, phase }) := by
  simp only [call, readSecondMessage, atTime, hawaiting, hfound]
  rfl

/-- Message 2 is accepted only by an initiator that awaits it, and makes it established. -/
theorem rank_of_accepted {message : Bytes} {now : UInt32}
    (h : (i.call S (.readSecond message now)).1 = .ok .accepted) :
    i.phase.rank = 1 ∧ (i.call S (.readSecond message now)).2.phase.rank = 2 := by
  have hmoves := call_moves S i (.readSecond message now)
  rw [h] at hmoves
  generalize (i.call S (.readSecond message now)).2 = i' at *
  cases hmoves with
  | accepted awaiting found =>
    obtain ⟨_, _, _, _, _, rfl⟩ := secondMessage_unused found
    exact ⟨by rw [awaiting]; rfl, rfl⟩

/-- Once message 2 is accepted, none is. -/
theorem not_accepted_later {before later : List Call} {message message' : Bytes} {now now' : UInt32}
    (h : ((i₀.run S before).call S (.readSecond message now)).1 = .ok .accepted) :
    ((i₀.run S (before ++ .readSecond message now :: later)).call S (.readSecond message' now')).1
      ≠ .ok .accepted := by
  intro h'
  have hrank := rank_run_le (S := S) ((i₀.run S before).call S (.readSecond message now)).2 later
  rw [(rank_of_accepted h).2] at hrank
  have hlater := (rank_of_accepted h').1
  rw [run_append] at hlater
  exact absurd hlater (Nat.ne_of_gt hrank)

/-- Message 2 is accepted at one place of a run. -/
theorem accepted_once {before before' after after' : List Call} {message message' : Bytes} {now now' : UInt32}
    (h : ((i₀.run S before).call S (.readSecond message now)).1 = .ok .accepted)
    (h' : ((i₀.run S before').call S (.readSecond message' now')).1 = .ok .accepted)
    (heq : before ++ .readSecond message now :: after = before' ++ .readSecond message' now' :: after') :
    before = before' := by
  obtain ⟨between, rfl, hrest⟩ | ⟨between, rfl, hrest⟩ := List.append_eq_append_iff.1 heq
  · cases between with
    | nil => exact (List.append_nil _).symm
    | cons c later =>
      cases hrest
      exact absurd h' (not_accepted_later h)
  · cases between with
    | nil => exact List.append_nil _
    | cons c later =>
      cases hrest
      exact absurd h (not_accepted_later h')

/-- An established initiator has accepted message 2 at some place. -/
theorem exists_accepted {calls : List Call} (hi : i₀.phase = .uninitialized)
    (h : (i₀.run S calls).isEstablished = true) :
    ∃ before message now after ss ephemeral phase, calls = before ++ .readSecond message now :: after ∧
      (i₀.run S before).phase = .awaitingSecondMessage ss ephemeral ∧
        secondMessage S i₀.authority now ss ephemeral message = .ok phase := by
  induction calls using List.reverseRecOn with
  | nil =>
    rw [isEstablished_iff_rank, show (i₀.run S []).phase = .uninitialized from hi] at h
    cases h
  | append_singleton calls c ih =>
    rw [run_concat] at h
    obtain ⟨_, _, _, _, _, hphase⟩ := isEstablished_iff.1 h
    obtain ⟨message, now, ss, ephemeral, rfl, -, hawaiting, hfound⟩ | hsame :=
      (call_moves S (i₀.run S calls) c).of_established hphase
    · rw [authority_run] at hfound
      exact ⟨calls, message, now, [], ss, ephemeral, _, rfl, hawaiting, hfound⟩
    · rw [hsame] at h
      obtain ⟨before, message, now, after, ss, ephemeral, phase, rfl, hread⟩ := ih h
      exact ⟨before, message, now, after ++ [c], ss, ephemeral, phase,
        by rw [List.append_assoc, List.cons_append], hread⟩

/-- How an initiator came through in a run of calls. -/
structure Authentication (S : Suite) (i₀ : Initiator) (calls : List Call) where
  /-- The calls before message 2 was accepted. -/
  before : List Call
  /-- Message 2. -/
  message : Bytes
  /-- The time that the clock showed. -/
  now : UInt32
  /-- The calls after it was accepted. -/
  after : List Call
  /-- The state that message 1 left. -/
  ss : SymmetricState
  /-- The key pair that message 1 was made with. -/
  ephemeral : KeyPair
  /-- What was found in message 2. -/
  reading : Reading S i₀.authority now ss ephemeral message
  /-- The call is one of the run. -/
  calls_eq : calls = before ++ .readSecond message now :: after
  /-- Message 2 was awaited. -/
  awaiting : (i₀.run S before).phase = .awaitingSecondMessage ss ephemeral
  /-- The call accepted it. -/
  accepted : ((i₀.run S before).call S (.readSecond message now)).1 = .ok .accepted
  /-- From then on the initiator is in the phase that the reading leads to. -/
  phase_eq : ∀ soon later, after = soon ++ later →
    (i₀.run S (before ++ .readSecond message now :: soon)).phase = reading.phase
  /-- No other call of the run accepted message 2. -/
  only : ∀ before' message' now' after', calls = before' ++ .readSecond message' now' :: after' →
    ((i₀.run S before').call S (.readSecond message' now')).1 = .ok .accepted → before' = before

/-- **An established initiator has read a message 2 that authenticates its peer**, once. -/
theorem authentication_of_established (hS : S.Exact) {calls : List Call} (hi : i₀.phase = .uninitialized)
    (h : (i₀.run S calls).isEstablished = true) :
    ∃ a : Authentication S i₀ calls, (i₀.run S calls).phase = a.reading.phase := by
  obtain ⟨before, message, now, after, ss, ephemeral, phase, rfl, hawaiting, hfound⟩ := exists_accepted hi h
  have hcall := call_readSecond_of_found hawaiting (by rw [authority_run]; exact hfound)
  obtain ⟨reading, rfl⟩ := (secondMessage_eq_ok_iff hS).1 hfound
  have haccepted := congrArg Prod.fst hcall
  have hphase : ∀ soon later, after = soon ++ later →
      (i₀.run S (before ++ .readSecond message now :: soon)).phase = reading.phase := by
    rintro soon later rfl
    have hrun : ∀ rest, i₀.run S (before ++ .readSecond message now :: rest)
        = Initiator.run S { i₀.run S before with clock := now, phase := reading.phase } rest := by
      intro rest
      rw [run_append]
      exact congrArg (fun i => run S i rest) (congrArg Prod.snd hcall)
    have hsoon := h
    rw [hrun, run_append] at hsoon
    rw [hrun, run_eq_of_established rfl (isEstablished_between rfl hsoon)]
  exact ⟨⟨before, message, now, after, ss, ephemeral, reading, rfl, hawaiting, haccepted, hphase,
    fun before' message' now' after' heq h' => accepted_once h' haccepted heq.symm⟩,
    hphase after [] (List.append_nil _).symm⟩

/-- **No session without an authenticated peer.** Whatever is called on an initiator, in which order, and
whatever it is given as message 2: it is established only if one call has accepted a message 2 with a reading
under the authority it was made with, and then it is in the phase that the reading leads to; it hands out a
session only if that is so, and the session is that of the reading. What the authority signs determines the
certificate. -/
theorem established_only_authenticated (hS : S.Exact) {authority : Key} {clock : Option UInt32}
    (hmake : Initiator.make authority clock = .ok i₀) (calls : List Call) :
    i₀.authority = authority ∧
      ((i₀.run S calls).isEstablished = true →
        ∃ a : Authentication S i₀ calls, (i₀.run S calls).phase = a.reading.phase) ∧
      (∀ config s i', (i₀.run S calls).intoSession config = (.ok s, i') →
        ∃ a : Authentication S i₀ calls, (i₀.run S calls).phase = a.reading.phase ∧
          s = a.reading.session config) ∧
      Function.Injective Certificate.signedBytes := by
  obtain ⟨hauthority, hi⟩ := of_make hmake
  refine ⟨hauthority, authentication_of_established hS hi, fun config s i' h => ?_,
    Certificate.signedBytes_injective⟩
  obtain ⟨a, hphase⟩ := authentication_of_established hS hi (isEstablished_of_intoSession h)
  obtain ⟨-, rfl, -⟩ := (intoSession_eq_ok_iff hphase).1 h
  exact ⟨a, hphase, rfl⟩

end

open Handshake.Sample in
/-- A run of calls that comes through: the session is asked for too early and with settings that are not
allowed, and in between message 2 is accepted. -/
theorem established_only_authenticated_on_sample :
    ∃ second calls, calls = [.intoSession {}, .writeFirst [1, 2, 3] initiatorEntropy, .readSecond second 2000,
        .intoSession { maxPayload := 0 }] ∧
      ∃ a : Authentication Suite.standard initiator calls,
        (initiator.run Suite.standard calls).phase = a.reading.phase := by
  obtain ⟨c, hverify⟩ := exists_verify
  have hS := Suite.standard_exact.toSealing
  obtain ⟨run⟩ : Nonempty (Handshake.Run Suite.standard initiator responder [1, 2, 3] initiatorEntropy
      responderEntropy) :=
    Handshake.exists_run hS rfl rfl hverify (by decide) (by decide) (by decide) ephemeral_agree static_agree
  obtain ⟨-, -, _, _, _, _, -, hphase, -⟩ := run.mirror hS ephemeral_agree static_agree
  have hmake : Initiator.make Handshake.Sample.authority.publicKey (some 2000) = .ok initiator := rfl
  refine ⟨run.second, _, rfl, (established_only_authenticated Suite.standard_exact hmake _).2.1 ?_⟩
  -- The calls that fail change nothing, and the others are those of the handshake.
  have hrun : initiator.run Suite.standard [.writeFirst [1, 2, 3] initiatorEntropy, .readSecond run.second 2000]
      = run.initiator := run.initiator_eq
  have hkept : (run.initiator.call Suite.standard (.intoSession { maxPayload := 0 })).2 = run.initiator := by
    rw [call, intoSession, hphase]
    rfl
  show ((initiator.run Suite.standard [.writeFirst [1, 2, 3] initiatorEntropy,
    .readSecond run.second 2000]).call Suite.standard (.intoSession { maxPayload := 0 })).2.isEstablished = true
  rw [hrun, hkept]
  exact isEstablished_iff.2 ⟨_, _, _, _, _, hphase⟩

end Initiator

end Stratum
