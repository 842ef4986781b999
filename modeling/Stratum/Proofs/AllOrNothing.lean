import Mathlib.Algebra.Order.Floor.Div
import Mathlib.GroupTheory.GroupAction.Ring
import Stratum.Proofs.PieceRecord

/-!
# A frame is encrypted whole or not at all

A frame takes one nonce for its header and one for each piece of its payload. The session
counts them before it seals the first, in words of 64 bits and up to the nonce that is
reserved; this module shows that it counts right, at the top of the range too.

* `Session.counted_in_words`: none of the operations of the count leaves the range of its
  words, whatever the nonce and whatever the frame.
* `Session.encrypt_eq_error_iff`: the reasons to refuse a frame (`Session.Refuses`), and
  that a refusal changes nothing; with `Session.encrypt_eq_ok_iff` there is no other end.
* `Recorded.encrypt_of_refuses`: a frame that is refused is refused before its first piece
  is sealed.
* **`Session.encrypt_all_or_nothing`**: both ends of encrypting, for every session,
  whatever its nonce has been set to.
-/

namespace Stratum

/-- The pieces of a payload are as many as it takes pieces of the greatest size to hold it. -/
theorem pieceCount_eq_ceilDiv (payload : Nat) : pieceCount payload = payload ⌈/⌉ maxPiece :=
  (Nat.ceilDiv_eq_add_pred_div payload maxPiece).symm

/-- The length of a frame's payload is a word. -/
theorem Frame.toNat_length (f : Frame) : (UInt64.ofNat f.payload.length).toNat = f.payload.length :=
  UInt64.toNat_ofNat_of_lt' (Nat.lt_of_le_of_lt f.payload_le (by decide))

namespace Session

variable {S : Suite} {s s' : Session} {f : Frame} {e : Fault}

/-! ### Counting in words -/

/-- How many pieces a payload has, counted in words of 64 bits. -/
def pieceWord (payload : UInt64) : UInt64 := (payload + UInt64.ofNat maxPiece - 1) / UInt64.ofNat maxPiece

/-- **The words in which nonces and sizes are counted are the numbers that they stand for**: no operation on
the way to the nonces needed, to those left or to the size of the encrypted frame wraps. -/
structure CountedInWords (nonce payload : UInt64) : Prop where
  /-- The payload rounded up, before the last byte is taken off. -/
  roundUp : (payload + UInt64.ofNat maxPiece).toNat = payload.toNat + maxPiece
  /-- And after that. -/
  lessOne : (payload + UInt64.ofNat maxPiece - 1).toNat = payload.toNat + maxPiece - 1
  /-- The pieces of the payload. -/
  pieces : (pieceWord payload).toNat = pieceCount payload.toNat
  /-- The nonces that the frame takes: one more, for the header. -/
  needed : (pieceWord payload + 1).toNat = pieceCount payload.toNat + 1
  /-- The nonces that are left before the reserved one. -/
  left : (reservedNonce - nonce).toNat = reservedNonce.toNat - nonce.toNat
  /-- The bytes of header and payload. -/
  text : (UInt64.ofNat sealedHeaderLength + payload).toNat = sealedHeaderLength + payload.toNat
  /-- The tags of the pieces. -/
  tags : (pieceWord payload * UInt64.ofNat Aead.tagLength).toNat = pieceCount payload.toNat * Aead.tagLength
  /-- The size of the encrypted frame. -/
  size : (encryptedFrameSize payload).toNat
    = sealedHeaderLength + payload.toNat + pieceCount payload.toNat * Aead.tagLength

/-- A payload that a frame can have is counted in words without loss. -/
theorem counted_in_words (nonce : UInt64) {payload : UInt64} (h : payload.toNat ≤ maxPayloadLength) :
    CountedInWords nonce payload := by
  have hpiece : (UInt64.ofNat maxPiece).toNat = 65519 := rfl
  have hle : payload.toNat ≤ 16777215 := h
  have hcount : pieceCount payload.toNat ≤ payload.toNat := by
    rw [pieceCount, maxPiece, maxNoiseMessage, Aead.tagLength]
    omega
  have hroundUp : (payload + UInt64.ofNat maxPiece).toNat = payload.toNat + maxPiece := by
    rw [UInt64.toNat_add, hpiece, maxPiece, maxNoiseMessage, Aead.tagLength]
    omega
  have hlessOne : (payload + UInt64.ofNat maxPiece - 1).toNat = payload.toNat + maxPiece - 1 := by
    rw [UInt64.toNat_sub_of_le, hroundUp]
    · rfl
    · rw [UInt64.le_iff_toNat_le, hroundUp]
      exact Nat.le_add_left 1 _
  have hpieces : (pieceWord payload).toNat = pieceCount payload.toNat := by
    rw [pieceWord, UInt64.toNat_div, hlessOne]
    rfl
  have htext : (UInt64.ofNat sealedHeaderLength + payload).toNat = sealedHeaderLength + payload.toNat := by
    rw [UInt64.toNat_add, show (UInt64.ofNat sealedHeaderLength).toNat = sealedHeaderLength from rfl,
      show sealedHeaderLength = 22 from rfl]
    omega
  have htags : (pieceWord payload * UInt64.ofNat Aead.tagLength).toNat
      = pieceCount payload.toNat * Aead.tagLength := by
    rw [UInt64.toNat_mul, hpieces, show (UInt64.ofNat Aead.tagLength).toNat = 16 from rfl, Aead.tagLength]
    omega
  refine ⟨hroundUp, hlessOne, hpieces, ?_, ?_, htext, htags, ?_⟩
  · rw [UInt64.toNat_add, hpieces, show (1 : UInt64).toNat = 1 from rfl]
    omega
  · have hlast : reservedNonce.toNat = 18446744073709551615 := rfl
    have hlt : nonce.toNat < 18446744073709551616 := nonce.toNat_lt
    rw [UInt64.toNat_sub_of_le]
    rw [UInt64.le_iff_toNat_le, hlast]
    omega
  · show (UInt64.ofNat sealedHeaderLength + payload + pieceWord payload * UInt64.ofNat Aead.tagLength).toNat = _
    rw [UInt64.toNat_add, htext, htags, show sealedHeaderLength = 22 from rfl, Aead.tagLength]
    omega

/-- The nonces suffice for a frame if and only if the last that it takes lies before the reserved one. -/
theorem length_pieces_le_room_iff : f.pieces.length ≤ s.sending.room ↔
    s.sending.cipher.nonce.toNat + 1 + f.payload.length ⌈/⌉ maxPiece < UInt64.size := by
  have hlt : s.sending.cipher.nonce.toNat < UInt64.size := s.sending.cipher.nonce.toNat_lt
  rw [f.length_pieces, Direction.room_eq, ← pieceCount_eq_ceilDiv, UInt64.size] at *
  omega

/-- The next nonce lies behind those that a frame has taken. -/
theorem nonce_afterFrame (hroom : f.pieces.length ≤ s.sending.room) :
    (s.sending.afterFrame S s.config.rekeyInterval f).cipher.nonce.toNat
      = s.sending.cipher.nonce.toNat + 1 + f.payload.length ⌈/⌉ maxPiece := by
  have hword (n : UInt64) : n.toNat ≤ 18446744073709551615 := Nat.le_of_lt_succ n.toNat_lt
  have hbefore := hword s.sending.cipher.nonce
  have hafter := hword (s.sending.afterFrame S s.config.rekeyInterval f).cipher.nonce
  have hskip : (s.sending.skip S s.config.rekeyInterval f.pieces.length).room + f.pieces.length
      = s.sending.room := Direction.room_skip hroom
  rw [Direction.afterFrame] at hafter ⊢
  rw [Direction.room_eq, Direction.room_eq] at hskip
  rw [Direction.room_eq] at hroom
  rw [← pieceCount_eq_ceilDiv]
  rw [f.length_pieces] at *
  omega

/-- In words, they are compared as numbers. -/
theorem pieceWord_succ_le_iff : pieceWord (UInt64.ofNat f.payload.length) + 1 ≤ reservedNonce - s.sending.cipher.nonce ↔
    f.pieces.length ≤ s.sending.room := by
  have hle : (UInt64.ofNat f.payload.length).toNat ≤ maxPayloadLength := by
    rw [f.toNat_length]
    exact f.payload_le
  have hwords := counted_in_words s.sending.cipher.nonce hle
  rw [UInt64.le_iff_toNat_le, hwords.needed, f.toNat_length, f.length_pieces]
  rfl

/-! ### Refusals -/

/-- Why a session refuses to encrypt a frame: the first of its checks that fails. -/
inductive Refuses (s : Session) (f : Frame) : Fault → Prop where
  /-- It is poisoned. -/
  | poisoned (h : s.poisoned = true) : Refuses s f (.session .poisoned)
  /-- The payload is over the cap. -/
  | cap (sound : s.poisoned = false) (h : s.config.maxPayload.toNat < f.payload.length) :
    Refuses s f (.session .payloadOverCap)
  /-- The nonces left are too few. -/
  | nonces (sound : s.poisoned = false) (fits : f.payload.length ≤ s.config.maxPayload.toNat)
    (h : s.sending.room < f.pieces.length) : Refuses s f (.session .noncesLeft)

theorem encrypt_of_refuses (h : Refuses s f e) : encrypt S f s = .error e s := by
  cases h with
  | poisoned h => exact Step.bind_of_error (checkPoison_of_poisoned h)
  | cap sound h =>
    refine (Step.bind_of_ok (checkPoison_of_sound sound)).trans (Step.get_bind.trans ?_)
    exact Step.reject_of_error h rfl
  | nonces sound fits h =>
    rw [f.length_pieces] at h
    refine (Step.bind_of_ok (checkPoison_of_sound sound)).trans (Step.get_bind.trans ?_)
    exact (congrFun (if_neg (Nat.not_lt.2 fits)) s).trans (Step.reject_of_error h rfl)

/-- A session refuses a frame for some reason, or every check has passed. -/
theorem exists_refuses_or (s : Session) (f : Frame) : (∃ e, Refuses s f e) ∨
    s.poisoned = false ∧ f.payload.length ≤ s.config.maxPayload.toNat ∧ f.pieces.length ≤ s.sending.room := by
  cases hpoison : s.poisoned with
  | true => exact .inl ⟨_, .poisoned hpoison⟩
  | false =>
    rcases Nat.lt_or_ge s.config.maxPayload.toNat f.payload.length with hcap | hcap
    · exact .inl ⟨_, .cap hpoison hcap⟩
    · rcases Nat.lt_or_ge s.sending.room f.pieces.length with hroom | hroom
      · exact .inl ⟨_, .nonces hpoison hcap hroom⟩
      · exact .inr ⟨rfl, hcap, hroom⟩

/-- **When encrypting fails, and that it then leaves no trace.** -/
theorem encrypt_eq_error_iff : encrypt S f s = .error e s' ↔ s' = s ∧ Refuses s f e := by
  constructor
  · intro h
    rcases exists_refuses_or s f with ⟨e', hrefuses⟩ | ⟨hpoison, hcap, hroom⟩
    · cases (encrypt_of_refuses hrefuses).symm.trans h
      exact ⟨rfl, hrefuses⟩
    · have hok := (encrypt_eq_ok_iff (S := S)).2 ⟨hpoison, hcap, hroom, rfl, rfl⟩
      cases hok.symm.trans h
  · rintro ⟨rfl, hrefuses⟩
    exact encrypt_of_refuses hrefuses

/-- The kind of a refusal says which check came first. -/
theorem Refuses.kind_eq (h : Refuses s f e) : e.kind =
    if s.poisoned then .decryptionFailed
    else if s.config.maxPayload.toNat < f.payload.length then .payloadTooLarge else .nonceExhausted := by
  cases h with
  | poisoned h => rw [if_pos h]; rfl
  | cap sound h => rw [sound, if_pos h]; rfl
  | nonces sound fits => rw [sound, if_neg (Nat.not_lt.2 fits)]; rfl

end Session

/-! ### The pieces sealed -/

namespace Recorded

open RecordM

variable {S : Suite} {f : Frame}

/-- Whatever is sealed from some point on is sealed by the cipher. -/
theorem invariant_sealed (S : Suite) (before : List Passage) : Invariant S fun r =>
    ∃ passed, r.sent = before ++ passed ∧ ∀ p ∈ passed, p.sealed = S.encrypt p.key p.nonce [] p.text where
  still h _ := h
  seals {r} piece h _ := by
    obtain ⟨passed, hsent, hsealed⟩ := h
    refine ⟨passed ++ [r.session.sending.passage S piece], ?_, ?_⟩
    · rw [afterSeal, hsent, List.append_assoc]
    · intro p hp
      rcases List.mem_append.1 hp with hbefore | hlast
      · exact hsealed p hbefore
      · obtain rfl := List.mem_singleton.1 hlast
        rfl
  opens h _ _ := h

/-- **A frame that is refused is refused before its first piece is sealed**, so that the record stays as it is. -/
theorem encrypt_of_refuses {e : Fault} {r : Recorded} (h : Session.Refuses r.session f e) :
    encrypt S f r = .error e r := by
  have hget : quietly get r = .ok r.session r := rfl
  have hfail (cause : SessionFault) : (quietly (Session.fail cause) : RecordM Unit) r = .error (.session cause) r := rfl
  cases h with
  | poisoned h => exact Step.bind_of_error (quietly_of_error (Session.checkPoison_of_poisoned h))
  | cap sound h =>
    refine (Step.bind_of_ok (quietly_of_ok (Session.checkPoison_of_sound sound))).trans ?_
    exact (Step.bind_of_ok hget).trans (Step.reject_of_error h (hfail _))
  | nonces sound fits h =>
    rw [f.length_pieces] at h
    refine (Step.bind_of_ok (quietly_of_ok (Session.checkPoison_of_sound sound))).trans ?_
    refine (Step.bind_of_ok hget).trans ?_
    exact (congrFun (if_neg (Nat.not_lt.2 fits)) r).trans (Step.reject_of_error h (hfail _))

/-- An encrypted frame is sealed as a whole, in pieces that are no longer than a message can be. -/
theorem exists_passed_of_encrypt (hS : S.Sealing) {c : Bytes} {r r' : Recorded} (h : encrypt S f r = .ok c r') :
    ∃ passed, r'.sent = r.sent ++ passed ∧ passed.map Passage.text = f.pieces ∧
      passed.flatMap Passage.sealed = c ∧ ∀ p ∈ passed, p.sealed.length ≤ maxNoiseMessage := by
  obtain ⟨passed, hsent, -, htexts, hsealed⟩ := encrypt_eq_ok h
  have hkeeps := (encrypt_keeps (invariant_sealed S r.sent) f).keeps r ⟨[], (List.append_nil _).symm, nofun⟩
  rw [h] at hkeeps
  obtain ⟨passed', hsent', hcipher⟩ := hkeeps
  obtain rfl : passed = passed' := List.append_cancel_left (hsent.symm.trans hsent')
  refine ⟨passed, hsent, htexts, hsealed, fun p hp => ?_⟩
  have hpiece : p.text ∈ f.pieces := htexts ▸ List.mem_map_of_mem hp
  have hle := Frame.length_le_of_mem_pieces hpiece
  rw [hcipher p hp, hS.length_encrypt]
  exact Nat.add_le_add_right hle Aead.tagLength

end Recorded

namespace Session

variable {S : Suite}

/-- **Encrypting is all or nothing.** For every session and every frame: it succeeds if and only if the session is
not poisoned, the payload is within the cap and the last nonce that the frame takes lies before the reserved one;
then the output has the size of an encrypted frame, and the next nonce is the one behind. Otherwise it fails with
the first of these checks that fails, and nothing has changed. What is sealed on the way are all pieces of the
frame, none of them longer than a message can be, or none at all. And the words that the check computes with
do not wrap. -/
theorem encrypt_all_or_nothing (hS : S.Sealing) (s : Session) (f : Frame) :
    ((∃ c s', encrypt S f s = .ok c s') ↔ s.poisoned = false ∧ f.payload.length ≤ s.config.maxPayload.toNat ∧
      s.sending.cipher.nonce.toNat + 1 + f.payload.length ⌈/⌉ 65519 < UInt64.size) ∧
    (∀ c s', encrypt S f s = .ok c s' →
      c.length = (encryptedFrameSize (UInt64.ofNat f.payload.length)).toNat ∧
      c.length = 22 + f.payload.length + 16 * (f.payload.length ⌈/⌉ 65519) ∧
      s'.sending.cipher.nonce.toNat = s.sending.cipher.nonce.toNat + 1 + f.payload.length ⌈/⌉ 65519) ∧
    (∀ e s', encrypt S f s = .error e s' → s' = s ∧ e.kind =
      if s.poisoned then .decryptionFailed
      else if s.config.maxPayload.toNat < f.payload.length then .payloadTooLarge else .nonceExhausted) ∧
    (∀ r : Recorded, r.session = s →
      (∀ e r', Recorded.encrypt S f r = .error e r' → r' = r) ∧
      ∀ c r', Recorded.encrypt S f r = .ok c r' → ∃ passed, r'.sent = r.sent ++ passed ∧
        passed.map Passage.text = f.pieces ∧ passed.flatMap Passage.sealed = c ∧
        ∀ p ∈ passed, p.sealed.length ≤ 65535) ∧
    CountedInWords s.sending.cipher.nonce (UInt64.ofNat f.payload.length) ∧
    (pieceWord (UInt64.ofNat f.payload.length) + 1 ≤ reservedNonce - s.sending.cipher.nonce ↔
      s.sending.cipher.nonce.toNat + 1 + f.payload.length ⌈/⌉ 65519 < UInt64.size) := by
  have hwords : CountedInWords s.sending.cipher.nonce (UInt64.ofNat f.payload.length) := by
    refine counted_in_words _ ?_
    rw [f.toNat_length]
    exact f.payload_le
  have hnonces : f.pieces.length ≤ s.sending.room ↔
      s.sending.cipher.nonce.toNat + 1 + f.payload.length ⌈/⌉ 65519 < UInt64.size :=
    length_pieces_le_room_iff
  refine ⟨⟨?_, ?_⟩, fun c s' h => ?_, fun e s' h => ?_, fun r hr => ⟨fun e r' h => ?_, fun c r' h => ?_⟩, hwords,
    pieceWord_succ_le_iff.trans hnonces⟩
  · rintro ⟨c, s', h⟩
    obtain ⟨hpoison, hcap, hroom, -⟩ := encrypt_eq_ok_iff.1 h
    exact ⟨hpoison, hcap, hnonces.1 hroom⟩
  · rintro ⟨hpoison, hcap, hlast⟩
    exact ⟨_, _, encrypt_eq_ok_iff.2 ⟨hpoison, hcap, hnonces.2 hlast, rfl, rfl⟩⟩
  · obtain ⟨-, -, hroom, rfl, rfl⟩ := encrypt_eq_ok_iff.1 h
    have hlength : (s.sending.sealedFrame S s.config.rekeyInterval f).length = frameSize f.header :=
      Direction.length_sealedFrame hS s.sending f
    have hsize := hwords.size
    rw [frameSize_eq, f.toNat_payloadLength, pieceCount_eq_ceilDiv] at hlength
    rw [f.toNat_length, pieceCount_eq_ceilDiv] at hsize
    refine ⟨hlength.trans hsize.symm, hlength.trans (congrArg (_ + ·) (Nat.mul_comm _ _)), ?_⟩
    exact nonce_afterFrame hroom
  · obtain ⟨rfl, hrefuses⟩ := encrypt_eq_error_iff.1 h
    exact ⟨rfl, hrefuses.kind_eq⟩
  · have herase := (Recorded.encrypt_keeps (Recorded.invariant_true S) f).erase_eq r
    rw [h] at herase
    obtain ⟨-, hrefuses⟩ := encrypt_eq_error_iff.1 herase.symm
    cases (Recorded.encrypt_of_refuses hrefuses).symm.trans h
    rfl
  · exact Recorded.exists_passed_of_encrypt hS h

open Sample in
/-- On the suite of the protocol, a frame that takes two nonces: with two left it is encrypted, and takes both; with
one left it is refused. -/
theorem encrypt_all_or_nothing_on_sample :
    (∃ c s', encrypt Suite.standard frame (setSendNonce 18446744073709551613 sender) = .ok c s' ∧ c.length = 41 ∧
      s'.sending.cipher.nonce = reservedNonce) ∧
    ∃ e, encrypt Suite.standard frame (setSendNonce 18446744073709551614 sender)
      = .error e (setSendNonce 18446744073709551614 sender) ∧ e.kind = .nonceExhausted := by
  have hS := Suite.standard_exact.toSealing
  constructor
  · obtain ⟨hiff, hok, -⟩ := encrypt_all_or_nothing hS (setSendNonce 18446744073709551613 sender) frame
    obtain ⟨c, s', h⟩ := hiff.2 (by decide)
    obtain ⟨-, hlength, hnonce⟩ := hok c s' h
    exact ⟨c, s', h, hlength, UInt64.toNat_inj.1 hnonce⟩
  · obtain ⟨hiff, -, herror, -⟩ := encrypt_all_or_nothing hS (setSendNonce 18446744073709551614 sender) frame
    cases h : encrypt Suite.standard frame (setSendNonce 18446744073709551614 sender) with
    | ok c s' =>
      obtain ⟨-, -, hlast⟩ := hiff.1 ⟨c, s', h⟩
      exact absurd hlast (by decide)
    | error e s' =>
      obtain ⟨rfl, hkind⟩ := herror e s' h
      exact ⟨e, rfl, hkind⟩

end Session

end Stratum
