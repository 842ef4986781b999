import Mathlib.Data.List.TakeWhile
import Mathlib.Data.Nat.Digits.Defs
import Stratum.NumberSetting
import Stratum.Proofs.Steps

/-!
# Numbers on the command line are read exactly

A number is given by a text of digits, and counts as what it is over the integers, whatever the length of
the text (`Decimal.Denotes`). Three ranges lie in the way: the 64 bits of the reader (`Decimal.leading`), the
bound of the setting, and the bits of its type.

* `Decimal.leading_eq_ok_length_iff`: behind a first character that is a digit the reader has no blank and no
  sign to tolerate, so that it reads the whole of a text only if the text denotes a number of 64 bits;
* `readSetting_eq_ok_iff`: so the checks before and behind it leave the texts that denote a number in range, and
  a number out of the range of the reader is over every bound;
* `ReadsNumbers`: what it is to read numbers exactly, which determines a function, and which narrowing keeps;
* **`number_settings_exact`**: ports and validities are read exactly, by the reader and by the digits alone.
-/

namespace Stratum

namespace Decimal

/-- A text of digits denotes a number: the digits are those of the number in base 10, the first one the most
significant, with zeros in front or without. -/
structure Denotes (text : Bytes) (n : Nat) : Prop where
  /-- There is a digit. -/
  ne_nil : text ≠ []
  /-- Nothing else is there. -/
  isDigit : ∀ c ∈ text, 0x30 ≤ c.toNat ∧ c.toNat ≤ 0x39
  /-- The digits are those of the number. -/
  ofDigits : Nat.ofDigits 10 (text.reverse.map fun c => c.toNat - 0x30) = n

theorem isDigit_iff (c : UInt8) : isDigit c = true ↔ 0x30 ≤ c.toNat ∧ c.toNat ≤ 0x39 := by
  simp [isDigit, UInt8.le_iff_toNat_le]

/-- Going over the digits from the left gives the number. -/
theorem value_eq_ofDigits (text : Bytes) :
    value text = Nat.ofDigits 10 (text.reverse.map fun c => c.toNat - 0x30) := by
  rw [Nat.ofDigits_eq_foldr, List.foldr_map, List.foldr_reverse, value]
  congr 1
  funext n c
  simp [Nat.add_comm]

theorem denotes_iff {text : Bytes} {n : Nat} :
    Denotes text n ↔ text ≠ [] ∧ text.all isDigit = true ∧ value text = n := by
  rw [value_eq_ofDigits, List.all_eq_true]
  simp only [isDigit_iff]
  exact ⟨fun h => ⟨h.ne_nil, h.isDigit, h.ofDigits⟩, fun h => ⟨h.1, h.2.1, h.2.2⟩⟩

theorem parse?_eq_some_iff {text : Bytes} {n : Nat} : parse? text = some n ↔ Denotes text n := by
  simp [parse?, denotes_iff, and_assoc]

/-! ### The number in front of a text -/

theorem not_isSpace_of_isDigit {c : UInt8} (h : isDigit c = true) : isSpace c = false := by
  rw [isDigit_iff] at h
  simp only [isSpace, Bool.or_eq_false_iff, Bool.and_eq_false_iff, beq_eq_false_iff_ne, ne_eq,
    ← UInt8.toNat_inj, decide_eq_false_iff_not, UInt8.le_iff_toNat_le, UInt8.reduceToNat]
  omega

theorem not_isSign_of_isDigit {c : UInt8} (h : isDigit c = true) : isSign c = false := by
  rw [isDigit_iff] at h
  simp only [isSign, Bool.or_eq_false_iff, beq_eq_false_iff_ne, ne_eq, ← UInt8.toNat_inj,
    UInt8.reduceToNat]
  omega

/-- A text that begins with a digit has no blank and no sign in front of its number. -/
theorem leading_of_digit {first : UInt8} (h : isDigit first = true) (rest : Bytes) :
    leading (first :: rest) =
      if UInt64.size ≤ value ((first :: rest).takeWhile isDigit) then .error .outOfRange
      else .ok (UInt64.ofNat (value ((first :: rest).takeWhile isDigit)),
        ((first :: rest).takeWhile isDigit).length) := by
  have hspaces : (first :: rest).takeWhile isSpace = [] := by
    simp [not_isSpace_of_isDigit h]
  have hsign : ((first :: rest).take 1).takeWhile isSign = [] := by
    simp [not_isSign_of_isDigit h]
  have hdigits : (first :: rest).takeWhile isDigit ≠ [] := by
    simp [h]
  simp only [leading, hspaces, List.length_nil, List.drop_zero, hsign, hdigits, if_false, Nat.zero_add]
  rfl

/-- **The reader reads the whole of a text that begins with a digit** exactly if the text denotes a number of
64 bits. -/
theorem leading_eq_ok_length_iff {first : UInt8} (h : isDigit first = true) {rest : Bytes} {v : UInt64} :
    leading (first :: rest) = .ok (v, (first :: rest).length) ↔ Denotes (first :: rest) v.toNat := by
  rw [leading_of_digit h, denotes_iff]
  constructor
  · intro hread
    split at hread
    · cases hread
    · rename_i hsmall
      obtain ⟨hv, hlength⟩ := Prod.mk.inj (Except.ok.inj hread)
      -- As many digits in front as characters: they are all digits.
      have hdigits := (List.takeWhile_prefix isDigit).eq_of_length hlength
      rw [hdigits] at hsmall hv
      refine ⟨List.cons_ne_nil _ _, List.all_eq_true.2 (List.takeWhile_eq_self_iff.1 hdigits), ?_⟩
      rw [← hv, UInt64.toNat_ofNat_of_lt' (Nat.lt_of_not_le hsmall)]
  · rintro ⟨-, hall, hvalue⟩
    have hsmall : ¬ UInt64.size ≤ v.toNat := Nat.not_le.2 v.toNat_lt
    rw [List.takeWhile_eq_self_iff.2 (List.all_eq_true.1 hall), hvalue, if_neg hsmall, UInt64.ofNat_toNat]

end Decimal

/-! ### Settings -/

section

variable {cause : ConfigFault} {max : Nat} {text : Bytes} {n : Nat}

theorem parsePositive_eq_ok_iff :
    parsePositive cause max text = .ok n ↔ Decimal.Denotes text n ∧ 1 ≤ n ∧ n ≤ max := by
  rw [parsePositive]
  cases hparse : Decimal.parse? text with
  | none =>
    simp only [reduceCtorEq, false_iff, not_and]
    intro hdenotes
    rw [Decimal.parse?_eq_some_iff.2 hdenotes] at hparse
    cases hparse
  | some v =>
    have hv := Decimal.parse?_eq_some_iff.1 hparse
    constructor
    · intro h
      dsimp only at h
      split at h
      · rename_i hrange
        cases h
        exact ⟨hv, hrange⟩
      · cases h
    · rintro ⟨hn, hrange⟩
      obtain rfl : v = n := hv.ofDigits.symm.trans hn.ofDigits
      exact if_pos hrange

/-- There is one fault for every text that is refused. -/
theorem eq_of_parsePositive_eq_error {e : Fault} (h : parsePositive cause max text = .error e) :
    e = .config cause := by
  rw [parsePositive] at h
  split at h
  · split at h
    · cases h
    · exact (Except.error.inj h).symm
  · exact (Except.error.inj h).symm

end

/-- What the check in front of the reader lets through. -/
theorem readSetting_first_iff (first : UInt8) :
    ¬ (first < 0x30 || 0x39 < first) = true ↔ Decimal.isDigit first = true := by
  rw [Decimal.isDigit_iff]
  simp only [Bool.or_eq_true, decide_eq_true_eq, UInt8.lt_iff_toNat_lt, UInt8.reduceToNat]
  omega

/-- And the check behind it. -/
theorem readSetting_whole_iff (v max : UInt64) (used length : Nat) :
    ¬ (used ≠ length || v == 0 || max < v) = true ↔ used = length ∧ 1 ≤ v.toNat ∧ v.toNat ≤ max.toNat := by
  simp only [Bool.or_eq_true, decide_eq_true_eq, beq_iff_eq, ← UInt64.toNat_inj, UInt64.lt_iff_toNat_lt,
    UInt64.reduceToNat]
  omega

section

variable {cause : ConfigFault} {max v : UInt64} {text : Bytes}

/-- **The two checks leave the numbers up to the bound**, and nothing that the reader tolerates beyond them. -/
theorem readSetting_eq_ok_iff :
    readSetting cause max text = .ok v ↔
      Decimal.Denotes text v.toNat ∧ 1 ≤ v.toNat ∧ v.toNat ≤ max.toNat := by
  cases text with
  | nil => exact ⟨fun h => (nomatch h), fun h => absurd rfl h.1.ne_nil⟩
  | cons first rest =>
    rw [readSetting]
    by_cases hfirst : Decimal.isDigit first = true
    · rw [if_neg ((readSetting_first_iff first).2 hfirst), ← Decimal.leading_eq_ok_length_iff hfirst]
      cases Decimal.leading (first :: rest) with
      | error e => simp
      | ok read =>
        obtain ⟨v', used⟩ := read
        have hwhole := readSetting_whole_iff v' max used (first :: rest).length
        dsimp only
        constructor
        · intro h
          split at h
          · cases h
          · rename_i hpassed
            obtain ⟨rfl, hrange⟩ := hwhole.1 hpassed
            cases h
            exact ⟨rfl, hrange⟩
        · rintro ⟨hread, hrange⟩
          obtain ⟨rfl, rfl⟩ := Prod.mk.inj (Except.ok.inj hread)
          exact if_neg (hwhole.2 ⟨rfl, hrange⟩)
    · rw [if_pos (Decidable.of_not_not (mt (readSetting_first_iff first).1 hfirst))]
      refine ⟨fun h => (nomatch h), fun h => absurd ?_ hfirst⟩
      exact (Decimal.isDigit_iff first).2 (h.1.isDigit first List.mem_cons_self)

theorem eq_of_readSetting_eq_error {e : Fault} (h : readSetting cause max text = .error e) :
    e = .config cause := by
  unfold readSetting at h
  split at h
  · exact (Except.error.inj h).symm
  · split at h
    · exact (Except.error.inj h).symm
    · split at h
      · exact (Except.error.inj h).symm
      · split at h
        · exact (Except.error.inj h).symm
        · cases h

end

/-! ### Exactness -/

/-- A function reads the numbers from 1 to `max` from the texts that denote them, and refuses every other text
with one fault. -/
structure ReadsNumbers {α : Type} (read : Bytes → Except Fault α) (toNat : α → Nat) (max : Nat)
    (refusal : Fault) : Prop where
  /-- It gives a number exactly if the text denotes it and it is in range. -/
  ok_iff : ∀ text n, (∃ v, read text = .ok v ∧ toNat v = n) ↔ Decimal.Denotes text n ∧ 1 ≤ n ∧ n ≤ max
  /-- It fails with no other fault. -/
  eq_refusal : ∀ text e, read text = .error e → e = refusal

namespace ReadsNumbers

variable {α β : Type} {read read' : Bytes → Except Fault α} {toNat : α → Nat} {max : Nat} {refusal : Fault}

/-- A text that denotes no number in range is refused. -/
theorem refuses (h : ReadsNumbers read toNat max refusal) {text : Bytes}
    (hnone : ∀ n, Decimal.Denotes text n → ¬ (1 ≤ n ∧ n ≤ max)) : read text = .error refusal := by
  cases hread : read text with
  | error e => rw [h.eq_refusal text e hread]
  | ok v =>
    obtain ⟨hdenotes, hrange⟩ := (h.ok_iff text (toNat v)).1 ⟨v, hread, rfl⟩
    exact absurd hrange (hnone _ hdenotes)

/-- There is only one such function, if its values are numbers. -/
theorem unique (hinj : Function.Injective toNat) (h : ReadsNumbers read toNat max refusal)
    (h' : ReadsNumbers read' toNat max refusal) : read = read' := by
  funext text
  by_cases hnumber : ∃ n, Decimal.Denotes text n ∧ 1 ≤ n ∧ n ≤ max
  · obtain ⟨n, hn⟩ := hnumber
    obtain ⟨v, hv, hvn⟩ := (h.ok_iff text n).2 hn
    obtain ⟨v', hv', hvn'⟩ := (h'.ok_iff text n).2 hn
    rw [hv, hv', hinj (hvn.trans hvn'.symm)]
  · have hnone : ∀ n, Decimal.Denotes text n → ¬ (1 ≤ n ∧ n ≤ max) :=
      fun n hn hrange => hnumber ⟨n, hn, hrange⟩
    rw [h.refuses hnone, h'.refuses hnone]

/-- What is read may be narrowed to a type that has room for the bound. -/
theorem narrow (h : ReadsNumbers read toNat max refusal) {narrowed : α → β} {toNat' : β → Nat}
    (hroom : ∀ v, toNat v ≤ max → toNat' (narrowed v) = toNat v) :
    ReadsNumbers (fun text => read text >>= fun v => pure (narrowed v)) toNat' max refusal where
  ok_iff := by
    intro text n
    rw [← h.ok_iff]
    constructor
    · rintro ⟨w, hw, rfl⟩
      obtain ⟨v, hread, hpure⟩ := Attempt.bind_eq_ok_iff.1 hw
      cases hpure
      have hmax := ((h.ok_iff text (toNat v)).1 ⟨v, hread, rfl⟩).2.2
      exact ⟨v, hread, (hroom v hmax).symm⟩
    · rintro ⟨v, hread, rfl⟩
      have hmax := ((h.ok_iff text (toNat v)).1 ⟨v, hread, rfl⟩).2.2
      exact ⟨narrowed v, Attempt.bind_of_ok hread, hroom v hmax⟩
  eq_refusal := by
    intro text e he
    obtain hread | ⟨v, -, hpure⟩ := Attempt.bind_eq_error_iff.1 he
    · exact h.eq_refusal text e hread
    · cases hpure

end ReadsNumbers

theorem parsePositive_readsNumbers (cause : ConfigFault) (max : Nat) :
    ReadsNumbers (parsePositive cause max) id max (.config cause) where
  ok_iff text n := by
    constructor
    · rintro ⟨v, hv, rfl⟩
      exact parsePositive_eq_ok_iff.1 hv
    · intro h
      exact ⟨n, parsePositive_eq_ok_iff.2 h, rfl⟩
  eq_refusal _ _ := eq_of_parsePositive_eq_error

theorem readSetting_readsNumbers (cause : ConfigFault) (max : UInt64) :
    ReadsNumbers (readSetting cause max) UInt64.toNat max.toNat (.config cause) where
  ok_iff text n := by
    constructor
    · rintro ⟨v, hv, rfl⟩
      exact readSetting_eq_ok_iff.1 hv
    · rintro ⟨hdenotes, hrange⟩
      have hn : (UInt64.ofNat n).toNat = n :=
        UInt64.toNat_ofNat_of_lt' (Nat.lt_of_le_of_lt hrange.2 max.toNat_lt)
      exact ⟨UInt64.ofNat n, readSetting_eq_ok_iff.2 (by rw [hn]; exact ⟨hdenotes, hrange⟩), hn⟩
  eq_refusal _ _ := eq_of_readSetting_eq_error

/-- **Numbers on the command line are read exactly.** A port is the number from 1 to 65 535 that its text
denotes, and a validity the number from 1 to 4 294 967 295: over the integers, with any number of digits. Every
other text is an invalid configuration, with the fault of its setting and no other. The checks around a reader
that tolerates more than digits, and the narrowing of its 64 bits, come to the same. -/
theorem number_settings_exact :
    ReadsNumbers parsePort UInt16.toNat 65535 (.config .portText) ∧
      ReadsNumbers parseValidity UInt32.toNat 4294967295 (.config .validityText) ∧
      readPort = parsePort ∧ readValidity = parseValidity ∧
      (Fault.config .portText).kind = .invalidConfig ∧ (Fault.config .validityText).kind = .invalidConfig := by
  have hport : ReadsNumbers parsePort UInt16.toNat 65535 (.config .portText) :=
    (parsePositive_readsNumbers .portText 65535).narrow fun v hv =>
      UInt16.toNat_ofNat_of_lt' (Nat.lt_succ_of_le hv)
  have hvalidity : ReadsNumbers parseValidity UInt32.toNat 4294967295 (.config .validityText) :=
    (parsePositive_readsNumbers .validityText 4294967295).narrow fun v hv =>
      UInt32.toNat_ofNat_of_lt' (Nat.lt_succ_of_le hv)
  have hreadPort : ReadsNumbers readPort UInt16.toNat 65535 (.config .portText) :=
    (readSetting_readsNumbers .portText 65535).narrow fun v hv => by
      rw [UInt64.toNat_toUInt16]
      exact Nat.mod_eq_of_lt (Nat.lt_succ_of_le hv)
  have hreadValidity : ReadsNumbers readValidity UInt32.toNat 4294967295 (.config .validityText) :=
    (readSetting_readsNumbers .validityText 4294967295).narrow fun v hv => by
      rw [UInt64.toNat_toUInt32]
      exact Nat.mod_eq_of_lt (Nat.lt_succ_of_le hv)
  refine ⟨hport, hvalidity, ?_, ?_, rfl, rfl⟩
  · exact hreadPort.unique (fun a b => UInt16.toNat_inj.1) hport
  · exact hreadValidity.unique (fun a b => UInt32.toNat_inj.1) hvalidity

/-- The reader takes ` -1` for the greatest number of 64 bits, and the setting refuses it. -/
example : Decimal.leading [0x20, 0x2D, 0x31] = .ok (18446744073709551615, 3) ∧
    readPort [0x20, 0x2D, 0x31] = .error (.config .portText) := ⟨rfl, rfl⟩

end Stratum
