import Stratum.Crypto.AeadBuffers
import Stratum.Proofs.Sealing
import Stratum.Proofs.Steps

/-!
# Opening inverts sealing

A text that is sealed in buffers (`Aead.sealText`) is the one that the suite of the protocol seals
(`sealText_eq`), and what is opened in buffers (`Aead.openSealed`) is what it opens (`openSealed_eq`): a buffer
that is not passed on because it is empty leaves the message as it is, and the first bytes of keystream meet the
first bytes of the text. A buffer that is too long for a call is where it ends: then both fail, with nothing in
the buffer of the caller.

* **`unsealing_inverts_sealing`**: opening succeeds with a text exactly on what sealing that text gives,
  whatever the lengths; everything else it refuses and leaves the buffer of the caller empty. The tag
  makes a sealed text 16 bytes longer, and no two message numbers share a nonce.
-/

namespace Stratum.Aead

namespace Context

variable (key : Key) (n : UInt64)

/-- A call passes an empty buffer by, and checks the length of any other. It makes no difference if nothing
comes of an empty one. -/
theorem skip_or_check {α : Type} {buffer : Bytes} {skipped taken : α} (h : buffer = [] → skipped = taken) :
    (if buffer = [] then pure skipped else checkLength buffer >>= fun _ => pure taken)
      = if Takes buffer then .ok taken else .error .tooLarge := by
  by_cases hempty : buffer = []
  · subst hempty
    rw [if_pos rfl, if_pos takes_nil, h rfl]
    rfl
  · rw [if_neg hempty, checkLength]
    by_cases htakes : Takes buffer
    · rw [if_pos htakes, if_pos htakes]
      rfl
    · rw [if_neg htakes, if_neg htakes]
      rfl

/-- The associated data comes first. -/
theorem authenticate_start (ad : Bytes) :
    (start key n).authenticate ad = if Takes ad then .ok ⟨key, n, ad, []⟩ else .error .tooLarge := by
  apply skip_or_check
  rintro rfl
  rfl

variable (ad : Bytes)

/-- The keystream of a cipher that has taken no text starts with block 1. -/
theorem keystream_first (count : Nat) :
    (⟨key, n, ad, []⟩ : Context).keystream count
      = ChaCha20.keystream key 1 (nonce n) ((count + 63) / 64) := by
  rw [keystream, List.length_nil, List.drop_zero, Nat.zero_add]

theorem xor_keystream_first (buffer : Bytes) :
    Bytes.xor buffer ((⟨key, n, ad, []⟩ : Context).keystream buffer.length)
      = ChaCha20.apply key 1 (nonce n) buffer := by
  rw [keystream_first, ChaCha20.apply]

/-- So the first text is enciphered from there on. -/
theorem encipher_first (text : Bytes) :
    (⟨key, n, ad, []⟩ : Context).encipher text
      = if Takes text then
          .ok (ChaCha20.apply key 1 (nonce n) text, ⟨key, n, ad, ChaCha20.apply key 1 (nonce n) text⟩)
        else .error .tooLarge := by
  rw [← xor_keystream_first key n ad]
  apply skip_or_check
  rintro rfl
  rfl

/-- And the first ciphertext is deciphered from there on. -/
theorem decipher_first (ciphertext : Bytes) :
    (⟨key, n, ad, []⟩ : Context).decipher ciphertext
      = if Takes ciphertext then
          .ok (ChaCha20.apply key 1 (nonce n) ciphertext, ⟨key, n, ad, ciphertext⟩)
        else .error .tooLarge := by
  rw [← xor_keystream_first key n ad]
  apply skip_or_check
  rintro rfl
  rfl

end Context

/-! ### Sealing and opening at once -/

/-- Sealing in buffers is sealing, as long as the buffers are taken. -/
theorem sealText_eq (key : Key) (n : UInt64) (ad text : Bytes) :
    sealText key n ad text = Suite.standard.sealText key n ad text := by
  rw [sealText, Suite.sealText, Context.authenticate_start]
  by_cases had : Takes ad
  · rw [if_pos had, Attempt.bind_of_ok rfl, Context.encipher_first]
    by_cases htext : Takes text
    · rw [if_pos htext, Attempt.bind_of_ok rfl, if_pos ⟨had, htext⟩]
      -- A stream cipher gives as many bytes as it takes.
      simp only [ChaCha20.length_apply, ne_eq, not_true_eq_false, if_false]
      rfl
    · rw [if_neg htext, Attempt.bind_of_error rfl, if_neg fun h => htext h.2]
  · rw [if_neg had, Attempt.bind_of_error rfl, if_neg fun h => had h.1]

/-- What a caller gets: whether there is a text, and the text or nothing in its buffer. -/
def outcome : Except BufferFault (Option Bytes) → EStateM.Result BufferFault Bytes Bool
  | .ok (some text) => .ok true text
  | .ok none => .ok false []
  | .error cause => .error cause []

/-- Opening in buffers is opening, as long as there is a tag and the buffers are taken. -/
theorem openSealed_eq (key : Key) (n : UInt64) (ad sealed out : Bytes) :
    openSealed key n ad sealed out = outcome (Suite.standard.openSealed key n ad sealed) := by
  have hclear : (set ([] : Bytes) : EStateM BufferFault Bytes PUnit) out = .ok ⟨⟩ [] := rfl
  rw [openSealed, Step.bind_of_ok hclear, Suite.openSealed]
  by_cases hshort : sealed.length < tagLength
  · rw [if_pos hshort, if_pos hshort]
    rfl
  · rw [if_neg hshort, if_neg hshort]
    by_cases had : Takes ad
    · have hdata := (Context.authenticate_start key n ad).trans (if_pos had)
      rw [Step.bind_of_ok (Step.ofExcept_eq_ok_iff.2 ⟨hdata, rfl⟩)]
      have hfirst := Context.decipher_first key n ad (sealed.take (sealed.length - tagLength))
      by_cases hbody : Takes (sealed.take (sealed.length - tagLength))
      · have htext := hfirst.trans (if_pos hbody)
        have hopen : Suite.standard.decrypt? key n ad sealed = decrypt? key n ad sealed := rfl
        rw [Step.bind_of_ok (Step.ofExcept_eq_ok_iff.2 ⟨htext, rfl⟩), if_pos ⟨had, hbody⟩, hopen, decrypt?,
          if_neg hshort]
        by_cases htag : sealed.drop (sealed.length - tagLength)
            = (tag key n ad (sealed.take (sealed.length - tagLength))).toBytes
        · rw [if_pos htag]
          exact congrFun (if_pos htag) []
        · rw [if_neg htag]
          exact congrFun (if_neg htag) []
      · have htext := hfirst.trans (if_neg hbody)
        rw [Step.bind_of_error (Step.ofExcept_of_error htext), if_neg fun h => hbody h.2]
        rfl
    · have hdata := (Context.authenticate_start key n ad).trans (if_neg had)
      rw [Step.bind_of_error (Step.ofExcept_of_error hdata), if_neg fun h => had h.1]
      rfl

/-! ### Nonces -/

theorem nonce_injective : Function.Injective nonce := by
  intro n m h
  have hbytes : Bytes.ofNatLE 8 n.toNat = Bytes.ofNatLE 8 m.toNat :=
    List.append_cancel_left (congrArg FixedBytes.toBytes h)
  have hfits : ∀ k : UInt64, k.toNat < Bytes.capacity 8 := fun k => k.toNat_lt
  have hvalue := congrArg Bytes.toNatLE hbytes
  rw [Bytes.toNatLE_ofNatLE (hfits n), Bytes.toNatLE_ofNatLE (hfits m)] at hvalue
  exact UInt64.toNat_inj.1 hvalue

/-! ### Sealing and opening -/

/-- Opening gives a text exactly on what sealing makes of it. -/
theorem openSealed_eq_ok_iff (key : Key) (n : UInt64) (ad text sealed out : Bytes) :
    openSealed key n ad sealed out = .ok true text ↔ sealText key n ad text = .ok sealed := by
  rw [openSealed_eq, sealText_eq, ← Suite.standard_exact.openSealed_eq_some_iff]
  rcases Suite.standard.openSealed key n ad sealed with cause | _ | text' <;> simp [outcome]

/-- What nothing seals to is refused, and leaves nothing. -/
theorem openSealed_of_forall_ne {key : Key} {n : UInt64} {ad sealed : Bytes}
    (h : ∀ text, sealText key n ad text ≠ .ok sealed) (out : Bytes) :
    openSealed key n ad sealed out
      = if sealed.length < tagLength ∨ (Takes ad ∧ Takes (sealed.take (sealed.length - tagLength))) then
          .ok false []
        else .error .tooLarge [] := by
  have hno : ∀ text, Suite.standard.openSealed key n ad sealed ≠ .ok (some text) := by
    intro text hopen
    rw [Suite.standard_exact.openSealed_eq_some_iff, ← sealText_eq] at hopen
    exact h text hopen
  rw [openSealed_eq]
  unfold Suite.openSealed at hno ⊢
  by_cases hshort : sealed.length < tagLength
  · rw [if_pos hshort, if_pos (.inl hshort)]
    rfl
  · rw [if_neg hshort] at hno ⊢
    by_cases htakes : Takes ad ∧ Takes (sealed.take (sealed.length - tagLength))
    · rw [if_pos htakes] at hno ⊢
      rw [if_pos (.inr htakes)]
      cases hopen : Suite.standard.decrypt? key n ad sealed with
      | none => rfl
      | some text =>
        rw [hopen] at hno
        exact absurd rfl (hno text)
    · rw [if_neg htakes, if_neg (not_or.2 ⟨hshort, htakes⟩)]
      rfl

/-- **Opening inverts sealing, and sealing opening.** Under one key, message number and associated data,
opening succeeds with a text exactly on what the text seals to, whatever the caller's buffer held. A text
that is taken seals to its ciphertext, which is 16 bytes longer. Every string that nothing seals to is
refused with an empty buffer: also one that is too short for a tag, and with a fault if a call does not take
it. No two message numbers have one nonce. -/
theorem unsealing_inverts_sealing (key : Key) (n : UInt64) (ad : Bytes) :
    (∀ text sealed out, openSealed key n ad sealed out = .ok true text ↔ sealText key n ad text = .ok sealed)
      ∧ (∀ text, sealText key n ad text
          = if Takes ad ∧ Takes text then .ok (encrypt key n ad text) else .error .tooLarge)
      ∧ (∀ text sealed, sealText key n ad text = .ok sealed → sealed.length = text.length + 16)
      ∧ (∀ sealed, (∀ text, sealText key n ad text ≠ .ok sealed) → ∀ out, openSealed key n ad sealed out
          = if sealed.length < 16 ∨ (Takes ad ∧ Takes (sealed.take (sealed.length - 16))) then .ok false []
            else .error .tooLarge [])
      ∧ Function.Injective nonce := by
  refine ⟨openSealed_eq_ok_iff key n ad, sealText_eq key n ad, ?_, ?_, nonce_injective⟩
  · intro text sealed h
    rw [sealText_eq] at h
    obtain ⟨-, -, rfl⟩ := Suite.sealText_eq_ok_iff.1 h
    exact length_encrypt key n ad text
  · intro sealed h out
    exact openSealed_of_forall_ne h out

/-- A sealed byte opens to that byte, and three bytes open to nothing, in a buffer that held something. -/
theorem byte_seals_and_opens :
    (∃ sealed, sealText (FixedBytes.replicate 32 1) 7 [3] [5] = .ok sealed ∧ sealed.length = 17
        ∧ openSealed (FixedBytes.replicate 32 1) 7 [3] sealed [9] = .ok true [5])
      ∧ openSealed (FixedBytes.replicate 32 1) 7 [3] [1, 2, 3] [9] = .ok false [] := by
  obtain ⟨hopens, hseals, hlength, hother, -⟩ :=
    unsealing_inverts_sealing (FixedBytes.replicate 32 1) 7 [3]
  have hok := (hseals [5]).trans (if_pos (by decide))
  refine ⟨⟨_, hok, hlength [5] _ hok, (hopens [5] _ [9]).2 hok⟩, ?_⟩
  have hnone : ∀ text, sealText (FixedBytes.replicate 32 1) 7 [3] text ≠ .ok [1, 2, 3] := by
    intro text h
    have hlen : 3 = text.length + 16 := hlength text _ h
    omega
  exact (hother [1, 2, 3] hnone [9]).trans (if_pos (by decide))

/-- With `2 ^ 31` bytes of associated data nothing is sealed, and opening 16 zeros, which nothing seals to, fails
instead of saying no. -/
theorem large_data_fails :
    (∀ text, sealText (FixedBytes.replicate 32 1) 7 (List.replicate (bufferBound + 1) 0) text = .error .tooLarge)
      ∧ openSealed (FixedBytes.replicate 32 1) 7 (List.replicate (bufferBound + 1) 0) (List.replicate 16 0) []
        = .error .tooLarge [] := by
  have hlarge : ¬ Takes (List.replicate (bufferBound + 1) 0) := by
    rw [Takes, List.length_replicate]
    exact Nat.not_succ_le_self bufferBound
  have hseal (text : Bytes) :
      sealText (FixedBytes.replicate 32 1) 7 (List.replicate (bufferBound + 1) 0) text = .error .tooLarge := by
    rw [sealText_eq, Suite.sealText, if_neg fun h => hlarge h.1]
  refine ⟨hseal, ?_⟩
  have hnone (text : Bytes) : sealText (FixedBytes.replicate 32 1) 7 (List.replicate (bufferBound + 1) 0) text
      ≠ .ok (List.replicate 16 0) := by
    rw [hseal]
    simp
  rw [openSealed_of_forall_ne hnone, if_neg]
  rintro (hshort | ⟨hdata, -⟩)
  · rw [List.length_replicate] at hshort
    exact absurd hshort (by decide)
  · exact hlarge hdata

end Stratum.Aead
