import Stratum.Proofs.HostileMessages

/-!
# The window of a certificate

A certificate is issued from now on, for a number of seconds, and the end of its window
is cut at the greatest time that 32 bits hold. So there is one if and only if it is
issued for some time and there is some time left; and what is issued is accepted from
its first second to the last before its end, by whoever has the authority's key and the
static key, and at no other time (`CertificateMessage.vouchesFor_of_issue`).

That the signature fits at all rests on two layouts that carry the same parts: the bytes
that are signed, with the static key and without the signature, and those that travel,
the other way around. What the authority signed is taken apart by neither side, so the
one assumption is that its key accepts the signature of these bytes.

An empty window is rejected before the certificate is made, as one that does not
authenticate; so the complaint of the constructor about a reversed window is never heard
(`CertificateMessage.verifyByMake_eq`).
-/

namespace Stratum

/-! ### Issuing -/

namespace CertificateMessage

/-- The end of a window is the sum over the integers, cut at the greatest time. -/
theorem toNat_windowEnd (now validity : UInt32) :
    (windowEnd now validity).toNat = min (now.toNat + validity.toNat) 0xFFFFFFFF := by
  have hnow : now.toNat < 2 ^ 32 := now.toNat_lt
  have hleft : ((0xFFFFFFFF : UInt32) - now).toNat = 2 ^ 32 - 1 - now.toNat := by
    have hle : now ≤ 0xFFFFFFFF := by
      rw [UInt32.le_iff_toNat_le]
      exact Nat.le_of_lt_succ hnow
    rw [UInt32.toNat_sub_of_le _ _ hle]
    rfl
  unfold windowEnd
  by_cases hover : 0xFFFFFFFF - now < validity
  · have hover' := UInt32.lt_iff_toNat_lt.1 hover
    rw [if_pos hover]
    show 2 ^ 32 - 1 = _
    omega
  · have hfits : ¬ ((0xFFFFFFFF : UInt32) - now).toNat < validity.toNat := mt UInt32.lt_iff_toNat_lt.2 hover
    rw [if_neg hover, UInt32.toNat_add, Nat.mod_eq_of_lt (by omega)]
    omega

/-- A certificate for a day that is issued 256 seconds before the greatest time. -/
example : windowEnd 4294967039 86400 = 4294967295 := by decide

/-- A window is not empty if and only if it has a length and there is time left. -/
theorem lt_windowEnd_iff {now validity : UInt32} :
    now < windowEnd now validity ↔ 0 < validity ∧ now < 0xFFFFFFFF := by
  have hnow : now.toNat < 2 ^ 32 := now.toNat_lt
  simp only [UInt32.lt_iff_toNat_lt, toNat_windowEnd, UInt32.reduceToNat]
  omega

variable {S : Suite} {authority : AuthorityKeyPair} {staticKey : Key} {config : CertificateConfig}
  {now : UInt32}

theorem issue_of_validity_eq_zero (h : config.validity = 0) :
    issue S authority staticKey config now = .error (.config .validityZero) := by
  have hvalidate : config.validate = .error (.config .validityZero) := by
    rw [CertificateConfig.validate, h]
    rfl
  exact Attempt.bind_of_error hvalidate

theorem validate_of_validity_pos (h : 0 < config.validity) : config.validate = .ok () := by
  have hne : config.validity ≠ 0 := by
    intro hzero
    rw [hzero] at h
    exact absurd h (by decide)
  rw [CertificateConfig.validate, bne_iff_ne.2 hne]
  rfl

theorem issue_of_no_time_left (h : 0 < config.validity) (hnow : now = 0xFFFFFFFF) :
    issue S authority staticKey config now = .error (.certificate .windowReversed) := by
  have hempty : ¬ now < windowEnd now config.validity := by
    intro hlt
    obtain ⟨-, hlast⟩ := lt_windowEnd_iff.1 hlt
    rw [hnow] at hlast
    exact absurd hlast (by decide)
  have hmake : Certificate.make config.version now (windowEnd now config.validity) staticKey =
      .error (.certificate .windowReversed) := dif_neg hempty
  rw [issue, Attempt.bind_of_ok (validate_of_validity_pos h), Attempt.bind_of_error hmake]

/-- What is issued has the parts that were asked for. -/
theorem issue_eq_ok_iff {m : CertificateMessage} :
    issue S authority staticKey config now = .ok m ↔ (0 < config.validity ∧ now < 0xFFFFFFFF) ∧
      m = ⟨config.version, now, windowEnd now config.validity, S.sign authority.privateKey
        (signedBytes ⟨config.version, now, windowEnd now config.validity, default⟩ staticKey)⟩ := by
  constructor
  · intro h
    obtain ⟨_, -, hrest⟩ := Attempt.bind_eq_ok_iff.1 h
    obtain ⟨c, hc, hm⟩ := Attempt.bind_eq_ok_iff.1 hrest
    unfold Certificate.make at hc
    split at hc
    · rename_i hwindow
      cases hc
      cases hm
      exact ⟨lt_windowEnd_iff.1 hwindow, rfl⟩
    · cases hc
  · rintro ⟨hlt, rfl⟩
    have hmake : Certificate.make config.version now (windowEnd now config.validity) staticKey =
        .ok ⟨config.version, now, windowEnd now config.validity, staticKey, lt_windowEnd_iff.2 hlt⟩ :=
      dif_pos (lt_windowEnd_iff.2 hlt)
    rw [issue, Attempt.bind_of_ok (validate_of_validity_pos hlt.1), Attempt.bind_of_ok hmake]
    rfl

/-! ### Verifying -/

/-- The verification with the certificate made by its checked constructor. -/
def verifyByMake (S : Suite) (authority staticKey : Key) (m : CertificateMessage) (now : UInt32) :
    Except Fault Certificate :=
  if m.validFrom ≥ m.notValidAfter then .error (.certificate .windowEmpty)
  else do
    let c ← Certificate.make m.version m.validFrom m.notValidAfter staticKey
    if S.verify authority c.signedBytes m.signature then
      if c.isValidAt now then return c else throw (.certificate .outsideWindow)
    else throw (.certificate .signature)

theorem verifyByMake_eq (authority staticKey : Key) (m : CertificateMessage) (now : UInt32) :
    verifyByMake S authority staticKey m now = verify S authority staticKey m now := by
  unfold verifyByMake verify
  by_cases hwindow : m.validFrom < m.notValidAfter
  · have hmake : Certificate.make m.version m.validFrom m.notValidAfter staticKey =
        .ok ⟨m.version, m.validFrom, m.notValidAfter, staticKey, hwindow⟩ := dif_pos hwindow
    rw [if_neg (UInt32.not_le.2 hwindow), dif_pos hwindow, Attempt.bind_of_ok hmake]
    rfl
  · rw [if_pos (UInt32.not_lt.1 hwindow), dif_neg hwindow]

/-- A message that travels unchanged carries the settings of its certificate, and is accepted exactly
inside its window, with an authority's key and a static key. -/
structure VouchesFor (S : Suite) (authority staticKey : Key) (config : CertificateConfig) (now : UInt32)
    (m : CertificateMessage) : Prop where
  /-- It is read back from its bytes. -/
  decode_encode : decode m.encode = .ok m
  /-- Its version is the configured one. -/
  version_eq : m.version = config.version
  /-- Its window starts when it is issued. -/
  validFrom_eq : m.validFrom = now
  /-- Its window ends when the validity is over, or with the greatest time. -/
  notValidAfter_eq : m.notValidAfter.toNat = min (now.toNat + config.validity.toNat) 0xFFFFFFFF
  /-- Inside the window the certificate comes out, with the parts of the message and the key. -/
  inside : ∀ t, now ≤ t → t < m.notValidAfter → ∃ c, m.verify S authority staticKey t = .ok c ∧
    (c.version, c.validFrom, c.notValidAfter, c.staticKey) =
      (config.version, now, m.notValidAfter, staticKey)
  /-- Before and behind the window the message does not authenticate. -/
  outside : ∀ t, ¬ (now ≤ t ∧ t < m.notValidAfter) → ∃ fault,
    m.verify S authority staticKey t = .error fault ∧ fault.kind = .authenticationFailed

theorem vouchesFor_of_issue {m : CertificateMessage} (h : issue S authority staticKey config now = .ok m)
    (hsign : authority.Accepts S (m.signedBytes staticKey)) :
    m.VouchesFor S authority.publicKey staticKey config now := by
  obtain ⟨-, hm⟩ := issue_eq_ok_iff.1 h
  have hversion : m.version = config.version := by rw [hm]
  have hfrom : m.validFrom = now := by rw [hm]
  have huntil : m.notValidAfter = windowEnd now config.validity := by rw [hm]
  refine ⟨decode_eq_ok_iff.2 rfl, hversion, hfrom, by rw [huntil, toNat_windowEnd], ?_, ?_⟩
  · intro t hle hlt
    obtain ⟨_, hverify⟩ := verify_of_issue h hsign (hfrom ▸ hle) hlt
    exact ⟨_, hverify, by rw [← hversion, ← hfrom]⟩
  · intro t hout
    cases hverify : m.verify S authority.publicKey staticKey t with
    | error fault => exact ⟨fault, rfl, kind_of_verify hverify⟩
    | ok c =>
      obtain ⟨hparts, -, hle, hlt⟩ := verify_eq_ok_iff.1 hverify
      simp only [Prod.mk.injEq] at hparts
      obtain ⟨-, hc, hc', -⟩ := hparts
      rw [hc, hfrom] at hle
      rw [hc'] at hlt
      exact absurd ⟨hle, hlt⟩ hout

end CertificateMessage

open CertificateMessage in
/-- **Certificates are accepted exactly in their window.** A certificate is issued if and only if it is
valid for some time and there is time left, and is refused for its settings or for its window otherwise;
what is issued vouches for the static key in its window, if the authority's key accepts what the authority
signs; and no message at all, for any keys and at any time, is rejected in another way than as one that
does not authenticate, also where the certificate is made by its checked constructor. -/
theorem certificates_verify_in_their_window (S : Suite) (authority : AuthorityKeyPair) (staticKey : Key)
    (config : CertificateConfig) (now : UInt32) :
    ((∃ m, issue S authority staticKey config now = .ok m) ↔ 0 < config.validity ∧ now < 0xFFFFFFFF) ∧
    (config.validity = 0 → ∃ fault, issue S authority staticKey config now = .error fault ∧
      fault.kind = .invalidConfig) ∧
    (0 < config.validity ∧ now = 0xFFFFFFFF → ∃ fault,
      issue S authority staticKey config now = .error fault ∧ fault.kind = .invalidArgument) ∧
    (∀ m, issue S authority staticKey config now = .ok m →
      authority.Accepts S (m.signedBytes staticKey) →
        m.VouchesFor S authority.publicKey staticKey config now) ∧
    (∀ authorityKey staticKey m t fault, verify S authorityKey staticKey m t = .error fault →
      fault.kind = .authenticationFailed) ∧
    (∀ authorityKey staticKey m t, verifyByMake S authorityKey staticKey m t =
      verify S authorityKey staticKey m t) := by
  refine ⟨?_, fun h => ?_, fun ⟨h, hnow⟩ => ?_, fun m hissue hsign => ?_, fun _ _ _ _ _ h => ?_, ?_⟩
  · constructor
    · rintro ⟨m, hissue⟩
      exact (issue_eq_ok_iff.1 hissue).1
    · intro h
      exact ⟨_, issue_eq_ok_iff.2 ⟨h, rfl⟩⟩
  · exact ⟨_, issue_of_validity_eq_zero h, rfl⟩
  · exact ⟨_, issue_of_no_time_left h hnow, rfl⟩
  · exact vouchesFor_of_issue hissue hsign
  · exact kind_of_verify h
  · exact verifyByMake_eq

open CertificateMessage Handshake.Sample in
/-- The assumption can be met: a certificate for a day is accepted in the first second of its window and
in the last, and not in the seconds next to them. -/
theorem certificates_verify_in_their_window_on_sample :
    issue Suite.standard authority static.publicKey {} 1000 = .ok certificate ∧
      (∀ t, t = 1000 ∨ t = 87399 → ∃ c,
        certificate.verify Suite.standard authority.publicKey static.publicKey t = .ok c) ∧
      ∀ t, t = 999 ∨ t = 87400 → ∃ fault,
        certificate.verify Suite.standard authority.publicKey static.publicKey t = .error fault ∧
          fault.kind = .authenticationFailed := by
  obtain ⟨-, -, -, hvouches, -⟩ :=
    certificates_verify_in_their_window Suite.standard authority static.publicKey {} 1000
  have hcertificate := hvouches certificate issue_eq accepts
  refine ⟨issue_eq, fun t ht => ?_, fun t ht => ?_⟩
  · obtain ⟨c, hc, -⟩ := hcertificate.inside t (by rcases ht with rfl | rfl <;> decide)
      (by rcases ht with rfl | rfl <;> decide)
    exact ⟨c, hc⟩
  · exact hcertificate.outside t (by rcases ht with rfl | rfl <;> decide)

end Stratum
