import Stratum.Noise.Mirror
import Stratum.Proofs.Sealing
import Stratum.Proofs.Steps

/-!
# Mirrored symmetric states stay equal

Two symmetric states that start with the same protocol name and go through the same script are one state at
every step. What a side binds to its hash is the ciphertext that it sent or received, and the hash is the
associated data of the next message: so a single difference would end the agreement, and the induction is
on pairs that are `SymmetricPair.same`.

* `CipherState.write_eq`, `CipherState.read_eq`, `SymmetricState.write_eq`, `SymmetricState.read_eq`: the
  calls in place are the operations of a handshake, and leave the state as it was if there is no new one;
* `SymmetricState.read_eq_ok_iff`: a state reads a text exactly from what it would write for that text, and
  goes on to the same state either way;
* `ScriptStep.perform_same`, `Script.run_same`: one step, and so all, keep two equal states equal, as long as
  there is a nonce for every text and no text under a key is too long; such a text is not sent
  (`ScriptStep.perform_of_long`);
* **`Script.mirrored_states_agree`**: from a protocol name on.
-/

namespace Stratum

/-! ### Calls in place -/

/-- The result of a call in place: the new state, or the old one with a fault. -/
def inPlace {σ α : Type} (s : σ) : Except Fault (α × σ) → EStateM.Result Fault σ α
  | .ok (a, s') => .ok a s'
  | .error e => .error e s

/-- The same of a call that may refuse what it is given, and then leaves the old state too. -/
def inPlace? {σ α : Type} (s : σ) : Except Fault (Option (α × σ)) → EStateM.Result Fault σ (Option α)
  | .ok (some (a, s')) => .ok (some a) s'
  | .ok none => .ok none s
  | .error e => .error e s

section

variable {σ α : Type} {s s' : σ} {a : α} {r : Except Fault (α × σ)} {r? : Except Fault (Option (α × σ))}

theorem inPlace_eq_ok_iff : inPlace s r = .ok a s' ↔ r = .ok (a, s') := by
  cases r with
  | error e => simp [inPlace]
  | ok next => simp [inPlace, Prod.ext_iff]

theorem inPlace?_eq_some_iff : inPlace? s r? = .ok (some a) s' ↔ r? = .ok (some (a, s')) := by
  cases r? with
  | error e => simp [inPlace?]
  | ok opened =>
    cases opened with
    | none => simp [inPlace?]
    | some next => simp [inPlace?, Prod.ext_iff]

/-- A call that refuses changes nothing. -/
theorem eq_of_inPlace?_eq_none (h : inPlace? s r? = .ok none s') : s' = s := by
  cases r? with
  | error e => cases h
  | ok opened =>
    cases opened with
    | none => cases h; rfl
    | some next => cases h

/-- Nor does one that fails. -/
theorem eq_of_inPlace?_eq_error {e : Fault} (h : inPlace? s r? = .error e s') : s' = s := by
  cases r? with
  | error e' => cases h; rfl
  | ok opened =>
    cases opened with
    | none => cases h
    | some next => cases h

end

namespace CipherState

variable (S : Suite) (c : CipherState) (ad : Bytes)

theorem write_eq (text : Bytes) : write S ad text c = inPlace c (c.encrypt S ad text) := by
  cases c with
  | unkeyed n => rfl
  | keyed k =>
    by_cases hn : k.nonce = reservedNonce
    · simp only [encrypt, KeyedCipher.encrypt, if_pos hn]
      exact congrFun (if_pos hn) _
    · simp only [encrypt, KeyedCipher.encrypt, if_neg hn]
      refine (congrFun (if_neg hn) _).trans ?_
      cases S.sealText k.key k.nonce ad text with
      | error cause => rfl
      | ok sealed => rfl

theorem read_eq (sealed : Bytes) : read S ad sealed c = inPlace? c (c.decrypt S ad sealed) := by
  cases c with
  | unkeyed n => rfl
  | keyed k =>
    by_cases hn : k.nonce = reservedNonce
    · simp only [decrypt, KeyedCipher.decrypt, if_pos hn]
      exact congrFun (if_pos hn) _
    · simp only [decrypt, KeyedCipher.decrypt, if_neg hn]
      refine (congrFun (if_neg hn) _).trans ?_
      rcases S.openSealed k.key k.nonce ad sealed with cause | _ | text <;> rfl

end CipherState

namespace SymmetricState

variable (S : Suite) (s : SymmetricState)

theorem write_eq (text : Bytes) : write S text s = inPlace s (s.encryptAndHash S text) := by
  have hcall := CipherState.write_eq S s.cipher s.hash.toBytes text
  rw [write, Step.get_bind, encryptAndHash]
  cases hsealed : s.cipher.encrypt S s.hash.toBytes text with
  | error e =>
    rw [hsealed] at hcall
    rw [Step.bind_of_error (Step.onPart_of_error hcall), Attempt.bind_of_error rfl]
    rfl
  | ok r =>
    rw [hsealed] at hcall
    rw [Step.bind_of_ok (Step.onPart_of_ok hcall), Attempt.bind_of_ok rfl]
    rfl

theorem read_eq (sealed : Bytes) : read S sealed s = inPlace? s (s.decryptAndHash S sealed) := by
  have hcall := CipherState.read_eq S s.cipher s.hash.toBytes sealed
  rw [read, Step.get_bind, decryptAndHash]
  cases hopened : s.cipher.decrypt S s.hash.toBytes sealed with
  | error e =>
    rw [hopened] at hcall
    rw [Step.bind_of_error (Step.onPart_of_error hcall), Attempt.bind_of_error rfl]
    rfl
  | ok opened =>
    cases opened with
    | none =>
      rw [hopened] at hcall
      rw [Step.bind_of_ok (Step.onPart_of_ok hcall), Attempt.bind_of_ok rfl]
      rfl
    | some r =>
      rw [hopened] at hcall
      rw [Step.bind_of_ok (Step.onPart_of_ok hcall), Attempt.bind_of_ok rfl]
      rfl

end SymmetricState

/-! ### Reading and writing -/

section

variable {S : Suite} (hS : S.Exact)
include hS

/-- A cipher opens a text exactly from what it would seal that text to. -/
theorem CipherState.decrypt_eq_ok_iff {c c' : CipherState} {ad text sealed : Bytes} :
    c.decrypt S ad sealed = .ok (some (text, c')) ↔ c.encrypt S ad text = .ok (sealed, c') := by
  cases c with
  | unkeyed n =>
    constructor
    · intro h
      cases h
      rfl
    · intro h
      cases h
      rfl
  | keyed k =>
    constructor
    · intro h
      obtain ⟨opened, hopened, hnext⟩ := Attempt.bind_eq_ok_iff.1 h
      cases opened with
      | none => cases hnext
      | some r =>
        cases hnext
        obtain ⟨hn, htext, hk⟩ := KeyedCipher.decrypt_eq_ok_iff.1 hopened
        exact Attempt.bind_of_ok (KeyedCipher.encrypt_eq_ok_iff.2 ⟨hn, hS.openSealed_eq_some_iff.1 htext, hk⟩)
    · intro h
      obtain ⟨⟨_, k'⟩, hsealed, hnext⟩ := Attempt.bind_eq_ok_iff.1 h
      cases hnext
      obtain ⟨hn, htext, hk⟩ := KeyedCipher.encrypt_eq_ok_iff.1 hsealed
      exact Attempt.bind_of_ok (KeyedCipher.decrypt_eq_ok_iff.2 ⟨hn, hS.openSealed_eq_some_iff.2 htext, hk⟩)

theorem SymmetricState.decryptAndHash_eq_ok_iff {s s' : SymmetricState} {text sealed : Bytes} :
    s.decryptAndHash S sealed = .ok (some (text, s')) ↔ s.encryptAndHash S text = .ok (sealed, s') := by
  constructor
  · intro h
    obtain ⟨opened, hopened, hnext⟩ := Attempt.bind_eq_ok_iff.1 h
    cases opened with
    | none => cases hnext
    | some r =>
      cases hnext
      exact Attempt.bind_of_ok ((CipherState.decrypt_eq_ok_iff hS).1 hopened)
  · intro h
    obtain ⟨⟨_, c⟩, hsealed, hnext⟩ := Attempt.bind_eq_ok_iff.1 h
    cases hnext
    exact Attempt.bind_of_ok ((CipherState.decrypt_eq_ok_iff hS).2 hsealed)

/-- **A state reads a text exactly from what it would write for it**, and is the same state afterwards. -/
theorem SymmetricState.read_eq_ok_iff {s s' : SymmetricState} {text sealed : Bytes} :
    read S sealed s = .ok (some text) s' ↔ write S text s = .ok sealed s' := by
  rw [read_eq, write_eq, inPlace?_eq_some_iff, inPlace_eq_ok_iff]
  exact decryptAndHash_eq_ok_iff hS

end

namespace SymmetricState

variable {S : Suite} {s s' : SymmetricState} {sealed : Bytes}

/-- A ciphertext that is rejected changes nothing. -/
theorem eq_of_read_none (h : read S sealed s = .ok none s') : s' = s := by
  rw [read_eq] at h
  exact eq_of_inPlace?_eq_none h

/-- Nor does one that is too long, or for which there is no nonce. -/
theorem eq_of_read_error {e : Fault} (h : read S sealed s = .error e s') : s' = s := by
  rw [read_eq] at h
  exact eq_of_inPlace?_eq_error h

end SymmetricState

/-! ### Nonces -/

/-- There is a nonce for `k` more texts. -/
def CipherState.HasNonces (c : CipherState) (k : Nat) : Prop :=
  ∀ keyed, c = .keyed keyed → keyed.nonce.toNat + k ≤ reservedNonce.toNat

/-- A text with a nonce is sealed, and the others keep theirs. -/
theorem CipherState.HasNonces.exists_encrypt {c : CipherState} {k : Nat} (h : c.HasNonces (k + 1)) (S : Suite)
    {ad text : Bytes} (had : Aead.Takes ad) (htext : c.hasKey = true → Aead.Takes text) :
    ∃ sealed c', c.encrypt S ad text = .ok (sealed, c') ∧ c'.HasNonces k ∧ c'.hasKey = c.hasKey := by
  cases c with
  | unkeyed n => exact ⟨text, .unkeyed n, rfl, fun keyed hc => (nomatch hc), rfl⟩
  | keyed keyed =>
    have hroom := h keyed rfl
    have hn : keyed.nonce ≠ reservedNonce := by
      intro heq
      rw [heq] at hroom
      omega
    have hsucc : (keyed.nonce + 1).toNat = keyed.nonce.toNat + 1 := by
      have hlt : reservedNonce.toNat = 18446744073709551615 := rfl
      rw [UInt64.toNat_add]
      exact Nat.mod_eq_of_lt (by show keyed.nonce.toNat + 1 < 18446744073709551616; omega)
    have hsealed := KeyedCipher.encrypt_eq_ok_iff.2 ⟨hn, Suite.sealText_of_takes (S := S) had (htext rfl), rfl⟩
    refine ⟨_, .keyed { keyed with nonce := keyed.nonce + 1 }, Attempt.bind_of_ok hsealed, ?_, rfl⟩
    intro keyed' hc
    cases hc
    show (keyed.nonce + 1).toNat + k ≤ reservedNonce.toNat
    omega

namespace SymmetricState

variable {S : Suite} {s : SymmetricState}

theorem hasNonces_start (S : Suite) (name : Bytes) (k : Nat) : (start S name).cipher.HasNonces k := by
  intro keyed h
  cases h

theorem hasNonces_mixKey (S : Suite) (s : SymmetricState) (material : Bytes) {k : Nat}
    (h : k ≤ reservedNonce.toNat) : (s.mixKey S material).cipher.HasNonces k := by
  intro keyed hc
  cases hc
  exact Nat.le_trans (Nat.le_of_eq (Nat.zero_add k)) h

/-- A text with a nonce is written. -/
theorem exists_write {k : Nat} (h : s.cipher.HasNonces (k + 1)) {text : Bytes}
    (htext : s.cipher.hasKey = true → Aead.Takes text) :
    ∃ sealed s', write S text s = .ok sealed s' ∧ s'.cipher.HasNonces k ∧ s'.cipher.hasKey = s.cipher.hasKey := by
  obtain ⟨sealed, c, hsealed, hc⟩ := h.exists_encrypt S (Aead.takes_toBytes s.hash (by decide)) htext
  refine ⟨sealed, mixHash S { s with cipher := c } sealed, ?_, hc⟩
  rw [write_eq, encryptAndHash, Attempt.bind_of_ok hsealed]
  rfl

end SymmetricState

/-! ### Steps of a script -/

namespace SymmetricPair

variable {α β γ : Type} {x : EStateM Fault SymmetricState α} {y : α → EStateM Fault SymmetricState β}
  {p : SymmetricPair} {s s' : SymmetricState} {a : α} {b : β}

theorem onSide_initiator_of_ok (h : x p.initiator = .ok a s) :
    onSide .initiator x p = .ok a { p with initiator := s } := by
  simp only [onSide, onPart, h]

theorem onSide_responder_of_ok (h : x p.responder = .ok a s) :
    onSide .responder x p = .ok a { p with responder := s } := by
  simp only [onSide, onPart, h]

/-- If a call fails on one side and changes nothing there, it changes nothing. -/
theorem onSide_same_of_error {e : Fault} (role : Role) (h : x s = .error e s) :
    onSide role x (same s) = .error e (same s) := by
  cases role with
  | initiator => simp only [onSide, onPart, same, h]
  | responder => simp only [onSide, onPart, same, h]

/-- If both sides go from one state to one state, whichever is first, what follows finds them equal. -/
theorem onSide_bind_other (role : Role) (hx : x s = .ok a s') (hy : y a s = .ok b s')
    (f : β → EStateM Fault SymmetricPair γ) :
    (onSide role x >>= fun a => onSide role.other (y a) >>= f) (same s) = f b (same s') := by
  cases role with
  | initiator =>
    exact (Step.bind_of_ok (onSide_initiator_of_ok hx)).trans (Step.bind_of_ok (onSide_responder_of_ok hy))
  | responder =>
    exact (Step.bind_of_ok (onSide_responder_of_ok hx)).trans (Step.bind_of_ok (onSide_initiator_of_ok hy))

end SymmetricPair

open SymmetricPair

/-- **A step keeps two equal states equal.** A text that it sends arrives, if there is a nonce for it. -/
theorem ScriptStep.perform_same {S : Suite} (hS : S.Exact) (step : ScriptStep) (rest : Script)
    {s : SymmetricState} (hnonces : s.cipher.HasNonces (Script.untilKey (step :: rest)))
    (hfits : Script.Fits s.cipher.hasKey (step :: rest)) :
    ∃ s', step.perform S (same s) = .ok ((Script.texts [step]).map some) (same s')
      ∧ s'.cipher.HasNonces (Script.untilKey rest) ∧ Script.Fits s'.cipher.hasKey rest := by
  cases step with
  | mixHash data => exact ⟨s.mixHash S data, rfl, hnonces, hfits⟩
  | mixKey material =>
    exact ⟨s.mixKey S material, rfl, SymmetricState.hasNonces_mixKey S s material hfits.1, hfits.2⟩
  | transfer writer text =>
    obtain ⟨htext, hfits⟩ := hfits
    obtain ⟨sealed, s', hwrite, hnonces', hkey⟩ := SymmetricState.exists_write (S := S) hnonces htext
    have hread := (SymmetricState.read_eq_ok_iff hS).2 hwrite
    refine ⟨s', onSide_bind_other writer hwrite hread fun received => pure [received], hnonces', ?_⟩
    rw [hkey]
    exact hfits

/-- **Under a key a text is too long that a call does not take**: then neither side moves. -/
theorem ScriptStep.perform_of_long {S : Suite} {s : SymmetricState} {c : KeyedCipher} (hkey : s.cipher = .keyed c)
    (hn : c.nonce ≠ reservedNonce) {text : Bytes} (htext : ¬ Aead.Takes text) (writer : Role) :
    (ScriptStep.transfer writer text).perform S (same s) = .error (.cipher .tooLarge) (same s) := by
  have hwrite : SymmetricState.write S text s = .error (.cipher .tooLarge) s := by
    have hsealed : c.encrypt S s.hash.toBytes text = .error (.cipher .tooLarge) := by
      rw [KeyedCipher.encrypt, if_neg hn, Suite.sealText, if_neg fun h => htext h.2]
    rw [SymmetricState.write_eq, SymmetricState.encryptAndHash, hkey]
    rw [CipherState.encrypt, hsealed]
    rfl
  exact Step.bind_of_error (onSide_same_of_error writer hwrite)

namespace Script

theorem texts_append (script rest : Script) : texts (script ++ rest) = texts script ++ texts rest := by
  induction script with
  | nil => rfl
  | cons step script ih =>
    cases step with
    | mixHash data => exact ih
    | mixKey material => exact ih
    | transfer writer text => exact congrArg (text :: ·) ih

/-- **So every script keeps them equal**, also one that is the start of a longer one. -/
theorem run_same {S : Suite} (hS : S.Exact) (script rest : Script) {s : SymmetricState}
    (hnonces : s.cipher.HasNonces (untilKey (script ++ rest))) (hfits : Fits s.cipher.hasKey (script ++ rest)) :
    ∃ s', run S script (same s) = .ok ((texts script).map some) (same s')
      ∧ s'.cipher.HasNonces (untilKey rest) ∧ Fits s'.cipher.hasKey rest := by
  induction script generalizing s with
  | nil => exact ⟨s, rfl, hnonces, hfits⟩
  | cons step script ih =>
    obtain ⟨s₁, hstep, hnonces₁, hfits₁⟩ := step.perform_same hS (script ++ rest) hnonces hfits
    obtain ⟨s', hrun, hnonces', hfits'⟩ := ih hnonces₁ hfits₁
    refine ⟨s', ?_, hnonces', hfits'⟩
    have htexts : texts (step :: script) = texts [step] ++ texts script := texts_append [step] script
    rw [run, Step.bind_of_ok hstep, Step.bind_of_ok hrun, htexts, List.map_append]
    rfl

/-- **Mirrored symmetric states stay equal.** From one protocol name on, both sides are in one state after
every step of every script that has a nonce for every text, and under a key no text that is too long: they
have one hash, one chaining key and one cipher, key and nonce. Every text that was sent arrived, and the
session gets equal ciphers on both sides, with nonce 0. Moreover a state, with a key or without, reads a text
from a ciphertext exactly if it would write that ciphertext for the text, and is the same state afterwards;
and one that it rejects, or that is too long or has no nonce, leaves it as it was. A text that is too long is
not sent under a key, and leaves both sides as they were. -/
theorem mirrored_states_agree (S : Suite) (hS : S.Exact) (name : Bytes) (script : Script)
    (hfits : Fits false script) :
    (∀ done, done <+: script → ∃ p, run S done (same (.start S name)) = .ok ((texts done).map some) p
        ∧ p.initiator = p.responder
        ∧ (p.initiator.split S).1 = (p.responder.split S).1
        ∧ (p.initiator.split S).1.1.nonce = 0 ∧ (p.initiator.split S).1.2.nonce = 0)
      ∧ (∀ (s s' : SymmetricState) (sealed : Bytes),
        (∀ text, SymmetricState.read S sealed s = .ok (some text) s'
            ↔ SymmetricState.write S text s = .ok sealed s')
          ∧ (SymmetricState.read S sealed s = .ok none s' → s' = s)
          ∧ (∀ e, SymmetricState.read S sealed s = .error e s' → s' = s))
      ∧ ∀ (s : SymmetricState) (c : KeyedCipher), s.cipher = .keyed c → c.nonce ≠ reservedNonce →
        ∀ text, ¬ Aead.Takes text → ∀ writer, (ScriptStep.transfer writer text).perform S (same s)
          = .error (.cipher .tooLarge) (same s) := by
  refine ⟨?_, ?_, ?_⟩
  · rintro done ⟨rest, rfl⟩
    obtain ⟨s, hrun, -, -⟩ := run_same hS done rest (SymmetricState.hasNonces_start S name _) hfits
    exact ⟨same s, hrun, rfl, rfl, rfl, rfl⟩
  · intro s s' sealed
    exact ⟨fun text => SymmetricState.read_eq_ok_iff hS, SymmetricState.eq_of_read_none,
      fun e => SymmetricState.eq_of_read_error⟩
  · intro s c hkey hn text htext writer
    exact ScriptStep.perform_of_long hkey hn htext writer

/-- A text in the clear and two under different keys, one in each direction. -/
theorem keyed_script_agrees : ∃ p,
    run Suite.standard [.mixHash [1], .transfer .initiator [2, 3], .mixKey [4], .transfer .responder [5],
        .mixKey [6], .transfer .initiator []] (same (.start Suite.standard [0x4e]))
      = .ok [some [2, 3], some [5], some []] p ∧ p.initiator = p.responder := by
  have hfits : Fits false [.mixHash [1], .transfer .initiator [2, 3], .mixKey [4], .transfer .responder [5],
      .mixKey [6], .transfer .initiator []] :=
    ⟨nofun, by decide, fun _ => by decide, by decide, fun _ => by decide, trivial⟩
  obtain ⟨hagree, -⟩ := mirrored_states_agree Suite.standard Suite.standard_exact [0x4e] _ hfits
  obtain ⟨p, hrun, heq, -⟩ := hagree _ (List.prefix_refl _)
  exact ⟨p, hrun, heq⟩

/-- A text of `2 ^ 31` bytes is the first under a key, and is not sent. -/
theorem long_text_not_sent :
    run Suite.standard [.mixKey [4], .transfer .initiator (List.replicate (Aead.bufferBound + 1) 0)]
        (same (.start Suite.standard [0x4e]))
      = .error (.cipher .tooLarge) (same ((SymmetricState.start Suite.standard [0x4e]).mixKey Suite.standard [4])) := by
  have hlong : ¬ Aead.Takes (List.replicate (Aead.bufferBound + 1) 0) := by
    rw [Aead.Takes, List.length_replicate]
    exact Nat.not_succ_le_self Aead.bufferBound
  have hfresh : (0 : UInt64) ≠ reservedNonce := by decide
  have hstep := ScriptStep.perform_of_long (S := Suite.standard)
    (s := (SymmetricState.start Suite.standard [0x4e]).mixKey Suite.standard [4]) rfl hfresh hlong .initiator
  have hkey : (ScriptStep.mixKey [4]).perform Suite.standard (same (.start Suite.standard [0x4e]))
      = .ok [] (same ((SymmetricState.start Suite.standard [0x4e]).mixKey Suite.standard [4])) := rfl
  rw [run, Step.bind_of_ok hkey, run]
  exact Step.bind_of_error (Step.bind_of_error hstep)

end Script

end Stratum
