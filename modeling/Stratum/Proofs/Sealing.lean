import Stratum.Noise.Cipher

/-!
# Sealing and opening

What the layers above rely on of a cipher: a ciphertext is 16 bytes longer than
its text, opening undoes sealing (`Suite.Sealing`), and nothing opens but what
was sealed (`Suite.Exact`). Both are promises of a suite, so that the layers can
be proved against any suite that keeps them. The layers seal and open in buffers,
and there the promises hold of whatever is not too long for one
(`Suite.Exact.openSealed_eq_some_iff`).

The suite of the protocol keeps them: **`standard_exact`**. ChaCha20 enciphers by
an exclusive or with a keystream that is at least as long as the text, so that
enciphering twice gives the text back (`ChaCha20.apply_apply`); and Poly1305's tag
is a function of key, nonce, associated data and ciphertext, so that the only
string that opens to a text is its ciphertext with the right tag behind it
(`Aead.decrypt?_eq_some_iff`).
-/

namespace Stratum

/-! ### The keystream -/

@[simp] theorem Bytes.length_xor (a b : Bytes) : (Bytes.xor a b).length = min a.length b.length := by
  simp [Bytes.xor]

/-- A string is not changed by two exclusive ors with a string at least as long. -/
theorem Bytes.xor_xor {text stream : Bytes} (h : text.length ≤ stream.length) :
    Bytes.xor (Bytes.xor text stream) stream = text := by
  induction text generalizing stream with
  | nil => simp [Bytes.xor]
  | cons b text ih =>
    cases stream with
    | nil => simp at h
    | cons k stream =>
      have hrest : text.length ≤ stream.length := by simpa using h
      simp only [Bytes.xor, List.zipWith_cons_cons, List.cons.injEq] at ih ⊢
      exact ⟨by rw [UInt8.xor_assoc, UInt8.xor_self, UInt8.xor_zero], ih hrest⟩

/-- Strings of one length, one for each item of a list. -/
theorem Bytes.length_flatMap {α : Type} {f : α → Bytes} {k : Nat} (hf : ∀ a, (f a).length = k)
    (items : List α) : (items.flatMap f).length = k * items.length := by
  induction items with
  | nil => simp
  | cons a items ih =>
    rw [List.flatMap_cons, List.length_append, hf, ih, List.length_cons, Nat.mul_succ, Nat.add_comm]

namespace ChaCha20

theorem length_block (key : Key) (counter : UInt32) (nonce : FixedBytes 12) :
    (block key counter nonce).length = 64 := by
  rw [block, Block.toBytes, Bytes.length_flatMap fun w => Bytes.length_ofNatLE 4 _, Vector.length_toList]

theorem length_keystream (key : Key) (counter : UInt32) (nonce : FixedBytes 12) (n : Nat) :
    (keystream key counter nonce n).length = 64 * n := by
  rw [keystream, Bytes.length_flatMap fun i => length_block key _ nonce, List.length_range]

/-- There is a byte of keystream for every byte of a text. -/
theorem length_le_keystream (key : Key) (counter : UInt32) (nonce : FixedBytes 12) (text : Bytes) :
    text.length ≤ (keystream key counter nonce ((text.length + 63) / 64)).length := by
  rw [length_keystream]
  omega

@[simp] theorem length_apply (key : Key) (counter : UInt32) (nonce : FixedBytes 12) (text : Bytes) :
    (apply key counter nonce text).length = text.length := by
  rw [apply, Bytes.length_xor]
  exact Nat.min_eq_left (length_le_keystream key counter nonce text)

/-- Enciphering and deciphering are the same. -/
theorem apply_apply (key : Key) (counter : UInt32) (nonce : FixedBytes 12) (text : Bytes) :
    apply key counter nonce (apply key counter nonce text) = text := by
  -- The keystream is that of a length, and enciphering keeps the length.
  have hlen := length_apply key counter nonce text
  rw [apply, hlen, apply]
  exact Bytes.xor_xor (length_le_keystream key counter nonce text)

end ChaCha20

/-! ### The tag -/

namespace Aead

@[simp] theorem length_encrypt (key : Key) (n : UInt64) (ad text : Bytes) :
    (encrypt key n ad text).length = text.length + tagLength := by
  simp [encrypt, FixedBytes.length_eq, tagLength]

/-- **Opening gives a text exactly on what sealing makes of it.** -/
theorem decrypt?_eq_some_iff (key : Key) (n : UInt64) (ad text sealed : Bytes) :
    decrypt? key n ad sealed = some text ↔ sealed = encrypt key n ad text := by
  unfold decrypt?
  constructor
  · intro h
    split at h
    · simp at h
    · rename_i hlen
      simp only at h
      split at h
      · rename_i htag
        simp only [Option.some.injEq] at h
        subst h
        rw [encrypt, ChaCha20.apply_apply, ← htag, List.take_append_drop]
      · simp at h
  · rintro rfl
    have hlen : ¬ (encrypt key n ad text).length < tagLength := by simp
    have hsize : (encrypt key n ad text).length - tagLength
        = (ChaCha20.apply key 1 (nonce n) text).length := by simp
    rw [if_neg hlen, hsize]
    simp only [encrypt, List.take_left, List.drop_left, if_true, ChaCha20.apply_apply]

end Aead

/-! ### Suites -/

/-- What a suite promises of its cipher to those who use it in good faith. -/
structure Suite.Sealing (S : Suite) : Prop where
  /-- A ciphertext has a tag behind it. -/
  length_encrypt : ∀ key n ad text, (S.encrypt key n ad text).length = text.length + Aead.tagLength
  /-- Opening undoes sealing. -/
  decrypt_encrypt : ∀ key n ad text, S.decrypt? key n ad (S.encrypt key n ad text) = some text

/-- What a suite promises of its cipher against everybody: only what was sealed opens. -/
structure Suite.Exact (S : Suite) : Prop extends Suite.Sealing S where
  /-- What opens is the ciphertext of its text. -/
  eq_encrypt : ∀ {key n ad sealed text}, S.decrypt? key n ad sealed = some text →
    sealed = S.encrypt key n ad text

/-- **The suite of the protocol keeps both promises.** -/
theorem Suite.standard_exact : Suite.standard.Exact where
  length_encrypt := Aead.length_encrypt
  decrypt_encrypt key n ad text := (Aead.decrypt?_eq_some_iff key n ad text _).2 rfl
  eq_encrypt h := (Aead.decrypt?_eq_some_iff _ _ _ _ _).1 h

/-! ### Buffers -/

theorem Aead.takes_nil : Takes [] := Nat.zero_le _

theorem Aead.takes_of_le {buffer : Bytes} {n : Nat} (h : buffer.length ≤ n) (hn : n ≤ bufferBound) :
    Takes buffer := Nat.le_trans h hn

theorem Aead.takes_toBytes {n : Nat} (bs : FixedBytes n) (hn : n ≤ bufferBound) : Takes bs.toBytes :=
  takes_of_le (Nat.le_of_eq bs.length_eq) hn

namespace Suite

variable {S : Suite} {key : Key} {n : UInt64} {ad text sealed : Bytes}

theorem sealText_eq_ok_iff :
    S.sealText key n ad text = .ok sealed ↔
      Aead.Takes ad ∧ Aead.Takes text ∧ sealed = S.encrypt key n ad text := by
  rw [sealText]
  by_cases h : Aead.Takes ad ∧ Aead.Takes text
  · rw [if_pos h, Except.ok.injEq]
    exact ⟨fun heq => ⟨h.1, h.2, heq.symm⟩, fun heq => heq.2.2.symm⟩
  · rw [if_neg h]
    exact ⟨fun heq => (nomatch heq), fun heq => absurd ⟨heq.1, heq.2.1⟩ h⟩

theorem sealText_of_takes (had : Aead.Takes ad) (htext : Aead.Takes text) :
    S.sealText key n ad text = .ok (S.encrypt key n ad text) := if_pos ⟨had, htext⟩

/-- What is taken as a whole opens or does not. -/
theorem exists_openSealed (S : Suite) (key : Key) (n : UInt64) (had : Aead.Takes ad) (hsealed : Aead.Takes sealed) :
    ∃ opened, S.openSealed key n ad sealed = .ok opened := by
  have hbody : Aead.Takes (sealed.take (sealed.length - Aead.tagLength)) :=
    Nat.le_trans (List.length_take_le' _ _) hsealed
  unfold openSealed
  rw [if_pos (And.intro had hbody)]
  split
  · exact ⟨_, rfl⟩
  · exact ⟨_, rfl⟩

/-- What opens has a tag, is taken, and opens as a whole. -/
theorem openSealed_eq_some_iff :
    S.openSealed key n ad sealed = .ok (some text) ↔ Aead.tagLength ≤ sealed.length ∧ Aead.Takes ad ∧
      Aead.Takes (sealed.take (sealed.length - Aead.tagLength)) ∧ S.decrypt? key n ad sealed = some text := by
  rw [openSealed]
  by_cases hshort : sealed.length < Aead.tagLength
  · rw [if_pos hshort]
    exact ⟨fun h => (nomatch h), fun h => absurd hshort (Nat.not_lt.2 h.1)⟩
  · rw [if_neg hshort]
    by_cases h : Aead.Takes ad ∧ Aead.Takes (sealed.take (sealed.length - Aead.tagLength))
    · rw [if_pos h, Except.ok.injEq]
      exact ⟨fun hopen => ⟨Nat.le_of_not_lt hshort, h.1, h.2, hopen⟩, fun hopen => hopen.2.2.2⟩
    · rw [if_neg h]
      exact ⟨fun hopen => (nomatch hopen), fun hopen => absurd ⟨hopen.2.1, hopen.2.2.1⟩ h⟩

/-- What is sealed has a body as long as its text, and so the one is taken if the other is. -/
theorem Sealing.takes_body_iff (hS : S.Sealing) (key : Key) (n : UInt64) (ad text : Bytes) :
    Aead.Takes ((S.encrypt key n ad text).take ((S.encrypt key n ad text).length - Aead.tagLength)) ↔
      Aead.Takes text := by
  rw [Aead.Takes, Aead.Takes, List.length_take, hS.length_encrypt, Nat.add_sub_cancel,
    Nat.min_eq_left (Nat.le_add_right _ _)]

/-- What is sealed opens. -/
theorem Sealing.openSealed_of_sealText (hS : S.Sealing) (h : S.sealText key n ad text = .ok sealed) :
    S.openSealed key n ad sealed = .ok (some text) := by
  obtain ⟨had, htext, rfl⟩ := sealText_eq_ok_iff.1 h
  refine openSealed_eq_some_iff.2 ⟨?_, had, (hS.takes_body_iff ..).2 htext, hS.decrypt_encrypt ..⟩
  rw [hS.length_encrypt]
  exact Nat.le_add_left _ _

/-- **And nothing else opens.** -/
theorem Exact.openSealed_eq_some_iff (hS : S.Exact) :
    S.openSealed key n ad sealed = .ok (some text) ↔ S.sealText key n ad text = .ok sealed := by
  refine ⟨fun h => ?_, hS.openSealed_of_sealText⟩
  obtain ⟨-, had, hbody, hopen⟩ := Suite.openSealed_eq_some_iff.1 h
  obtain rfl := hS.eq_encrypt hopen
  exact sealText_of_takes had ((hS.takes_body_iff ..).1 hbody)

end Suite

namespace KeyedCipher

variable {S : Suite} {c c' : KeyedCipher} {ad text sealed : Bytes}

theorem encrypt_eq_ok_iff :
    c.encrypt S ad text = .ok (sealed, c') ↔ c.nonce ≠ reservedNonce ∧
      S.sealText c.key c.nonce ad text = .ok sealed ∧ c' = { c with nonce := c.nonce + 1 } := by
  rw [encrypt]
  by_cases hn : c.nonce = reservedNonce
  · rw [if_pos hn]
    exact ⟨fun h => (nomatch h), fun h => absurd hn h.1⟩
  · rw [if_neg hn]
    cases S.sealText c.key c.nonce ad text with
    | error cause => exact ⟨fun h => (nomatch h), fun h => (nomatch h.2.1)⟩
    | ok sealed' => simp [hn, eq_comm]

theorem decrypt_eq_ok_iff :
    c.decrypt S ad sealed = .ok (some (text, c')) ↔ c.nonce ≠ reservedNonce ∧
      S.openSealed c.key c.nonce ad sealed = .ok (some text) ∧ c' = { c with nonce := c.nonce + 1 } := by
  rw [decrypt]
  by_cases hn : c.nonce = reservedNonce
  · rw [if_pos hn]
    exact ⟨fun h => (nomatch h), fun h => absurd hn h.1⟩
  · rw [if_neg hn]
    cases S.openSealed c.key c.nonce ad sealed with
    | error cause => exact ⟨fun h => (nomatch h), fun h => (nomatch h.2.1)⟩
    | ok opened =>
      cases opened with
      | none => exact ⟨fun h => (nomatch h), fun h => (nomatch h.2.1)⟩
      | some text' => simp [hn, eq_comm]

end KeyedCipher

end Stratum
