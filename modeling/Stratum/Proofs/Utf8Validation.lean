import Stratum.Proofs.Codec
import Mathlib.Data.Fin.Basic
import Mathlib.Data.Nat.Bitwise

/-!
# UTF-8 validation is exact

A byte string passes `Utf8.isValid` if and only if it is the encoding of some list
of characters (`Utf8.isValid_eq_true_iff`). The encoding is the library's own,
`String.utf8EncodeChar`, which takes the shortest of the four forms, and the library's
characters are the Unicode scalar values; the check knows neither, and reads masks.

Per form there is one equivalence (`Utf8.encodeChar_eq_two_iff` and its like): the
bytes that pass the masks are the encoding of the character whose code point they
carry. So the check takes a character away from the front exactly where an encoding
does, and the rest is induction over the characters in one direction and over the
bytes in the other.

`Utf8.scan` is the check as a loop over places of a string of known length, with code
points in 32 bits. Each of its reads is checked, and it never makes one outside the
string: `Utf8.scan_eq`. Last, what reading a text from the wire comes to
(`Text.Reading`): the bytes are checked before the constructor sees them, so that its
own complaint about them is never heard, in no format of the wire.
-/

namespace Stratum

namespace Utf8

/-- The UTF-8 encoding of a list of characters, one after another. -/
def encode (cs : List Char) : Bytes := cs.flatMap String.utf8EncodeChar

/-! ### Masks as ranges -/

theorem forall_byte {p : UInt8 → Prop} (h : ∀ n : Fin 256, p (UInt8.ofFin n)) (b : UInt8) : p b :=
  h b.toFin

theorem mask_two_iff : ∀ b : UInt8, b &&& 0xE0 = 0xC0 ↔ 0xC0 ≤ b.toNat ∧ b.toNat < 0xE0 :=
  forall_byte (by decide +kernel)

theorem mask_three_iff : ∀ b : UInt8, b &&& 0xF0 = 0xE0 ↔ 0xE0 ≤ b.toNat ∧ b.toNat < 0xF0 :=
  forall_byte (by decide +kernel)

theorem mask_four_iff : ∀ b : UInt8, b &&& 0xF8 = 0xF0 ↔ 0xF0 ≤ b.toNat ∧ b.toNat < 0xF8 :=
  forall_byte (by decide +kernel)

theorem isContinuation_iff (b : UInt8) : isContinuation b = true ↔ 0x80 ≤ b.toNat ∧ b.toNat < 0xC0 := by
  have h : ∀ b : UInt8, b &&& 0xC0 = 0x80 ↔ 0x80 ≤ b.toNat ∧ b.toNat < 0xC0 :=
    forall_byte (by decide +kernel)
  rw [isContinuation, beq_iff_eq, h]

theorem toNat_lowBits (b : UInt8) :
    (b &&& 0x07).toNat = b.toNat % 8 ∧ (b &&& 0x0F).toNat = b.toNat % 16 ∧
      (b &&& 0x1F).toNat = b.toNat % 32 ∧ (b &&& 0x3F).toNat = b.toNat % 64 := by
  simp only [UInt8.toNat_and]
  exact ⟨Nat.and_two_pow_sub_one_eq_mod _ 3, Nat.and_two_pow_sub_one_eq_mod _ 4,
    Nat.and_two_pow_sub_one_eq_mod _ 5, Nat.and_two_pow_sub_one_eq_mod _ 6⟩

theorem codePoint2_eq (b₀ b₁ : UInt8) :
    codePoint2 b₀ b₁ = b₀.toNat % 32 * 64 + b₁.toNat % 64 := by
  simp only [codePoint2, continuationBits, toNat_lowBits]

theorem codePoint3_eq (b₀ b₁ b₂ : UInt8) :
    codePoint3 b₀ b₁ b₂ = (b₀.toNat % 16 * 64 + b₁.toNat % 64) * 64 + b₂.toNat % 64 := by
  simp only [codePoint3, continuationBits, toNat_lowBits]

theorem codePoint4_eq (b₀ b₁ b₂ b₃ : UInt8) :
    codePoint4 b₀ b₁ b₂ b₃ =
      ((b₀.toNat % 8 * 64 + b₁.toNat % 64) * 64 + b₂.toNat % 64) * 64 + b₃.toNat % 64 := by
  simp only [codePoint4, continuationBits, toNat_lowBits]

/-! ### The four forms of a character -/

theorem isScalar_eq_true_iff (v : Nat) : isScalar v = true ↔ v.isValidChar := by
  simp only [isScalar, Bool.and_eq_true, decide_eq_true_eq, Bool.not_eq_true',
    Bool.and_eq_false_iff, decide_eq_false_iff_not, Nat.isValidChar]
  omega

theorem isScalar_toNat (c : Char) : isScalar c.toNat = true :=
  (isScalar_eq_true_iff _).2 c.valid

theorem exists_char_of_isScalar {v : Nat} (h : isScalar v = true) : ∃ c : Char, c.toNat = v := by
  have hv : v.isValidChar := (isScalar_eq_true_iff v).1 h
  exact ⟨Char.ofNatAux v hv, rfl⟩

theorem ofNat_eq_iff {n : Nat} (h : n < 256) (b : UInt8) : UInt8.ofNat n = b ↔ n = b.toNat := by
  rw [← UInt8.toNat_inj, UInt8.toNat_ofNat', Nat.mod_eq_of_lt h]

theorem encodeChar_eq (c : Char) :
    String.utf8EncodeChar c =
      if c.toNat ≤ 0x7F then [UInt8.ofNat c.toNat]
      else if c.toNat ≤ 0x7FF then
        [UInt8.ofNat (c.toNat / 64 % 32 + 192), UInt8.ofNat (c.toNat % 64 + 128)]
      else if c.toNat ≤ 0xFFFF then
        [UInt8.ofNat (c.toNat / 4096 % 16 + 224), UInt8.ofNat (c.toNat / 64 % 64 + 128),
          UInt8.ofNat (c.toNat % 64 + 128)]
      else
        [UInt8.ofNat (c.toNat / 262144 % 8 + 240), UInt8.ofNat (c.toNat / 4096 % 64 + 128),
          UInt8.ofNat (c.toNat / 64 % 64 + 128), UInt8.ofNat (c.toNat % 64 + 128)] := rfl

theorem encodeChar_eq_one_iff {c : Char} {b : UInt8} :
    String.utf8EncodeChar c = [b] ↔ b < 0x80 ∧ c.toNat = b.toNat := by
  have hb : b < 0x80 ↔ b.toNat < 128 := UInt8.lt_iff_toNat_lt
  rw [encodeChar_eq, hb]
  split
  · rw [List.cons.injEq, ofNat_eq_iff (by omega)]
    simp only [and_true]
    omega
  · split
    · exact iff_of_false (by simp) (by omega)
    · split <;> exact iff_of_false (by simp) (by omega)

theorem encodeChar_eq_two_iff {c : Char} {b₀ b₁ : UInt8} :
    String.utf8EncodeChar c = [b₀, b₁] ↔
      (b₀ &&& 0xE0 = 0xC0 ∧ isContinuation b₁ = true ∧ 0x80 ≤ codePoint2 b₀ b₁) ∧
        c.toNat = codePoint2 b₀ b₁ := by
  rw [encodeChar_eq, mask_two_iff, isContinuation_iff, codePoint2_eq]
  split
  · exact iff_of_false (by simp) (by omega)
  · split
    · simp only [List.cons.injEq, and_true]
      rw [ofNat_eq_iff (by omega), ofNat_eq_iff (by omega)]
      omega
    · split <;> exact iff_of_false (by simp) (by omega)

theorem encodeChar_eq_three_iff {c : Char} {b₀ b₁ b₂ : UInt8} :
    String.utf8EncodeChar c = [b₀, b₁, b₂] ↔
      (b₀ &&& 0xF0 = 0xE0 ∧ isContinuation b₁ = true ∧ isContinuation b₂ = true ∧
        0x800 ≤ codePoint3 b₀ b₁ b₂) ∧ c.toNat = codePoint3 b₀ b₁ b₂ := by
  rw [encodeChar_eq, mask_three_iff, isContinuation_iff, isContinuation_iff, codePoint3_eq]
  split
  · exact iff_of_false (by simp) (by omega)
  · split
    · exact iff_of_false (by simp) (by omega)
    · split
      · simp only [List.cons.injEq, and_true]
        rw [ofNat_eq_iff (by omega), ofNat_eq_iff (by omega), ofNat_eq_iff (by omega)]
        omega
      · exact iff_of_false (by simp) (by omega)

theorem encodeChar_eq_four_iff {c : Char} {b₀ b₁ b₂ b₃ : UInt8} :
    String.utf8EncodeChar c = [b₀, b₁, b₂, b₃] ↔
      (b₀ &&& 0xF8 = 0xF0 ∧ isContinuation b₁ = true ∧ isContinuation b₂ = true ∧
        isContinuation b₃ = true ∧ 0x10000 ≤ codePoint4 b₀ b₁ b₂ b₃) ∧
        c.toNat = codePoint4 b₀ b₁ b₂ b₃ := by
  have hc : c.toNat < 0x110000 := by
    have := (isScalar_eq_true_iff _).1 (isScalar_toNat c)
    unfold Nat.isValidChar at this
    omega
  rw [encodeChar_eq, mask_four_iff, isContinuation_iff, isContinuation_iff, isContinuation_iff,
    codePoint4_eq]
  split
  · exact iff_of_false (by simp) (by omega)
  · split
    · exact iff_of_false (by simp) (by omega)
    · split
      · exact iff_of_false (by simp) (by omega)
      · simp only [List.cons.injEq, and_true]
        rw [ofNat_eq_iff (by omega), ofNat_eq_iff (by omega), ofNat_eq_iff (by omega),
          ofNat_eq_iff (by omega)]
        omega

theorem encodeChar_cases (c : Char) :
    (∃ b, String.utf8EncodeChar c = [b]) ∨ (∃ b₀ b₁, String.utf8EncodeChar c = [b₀, b₁]) ∨
      (∃ b₀ b₁ b₂, String.utf8EncodeChar c = [b₀, b₁, b₂]) ∨
        ∃ b₀ b₁ b₂ b₃, String.utf8EncodeChar c = [b₀, b₁, b₂, b₃] := by
  rw [encodeChar_eq]
  split
  · exact .inl ⟨_, rfl⟩
  · split
    · exact .inr (.inl ⟨_, _, rfl⟩)
    · split
      · exact .inr (.inr (.inl ⟨_, _, _, rfl⟩))
      · exact .inr (.inr (.inr ⟨_, _, _, _, rfl⟩))

/-! ### One character off the front -/

section Front

variable {b₀ : UInt8}

/-- No first byte announces two forms at once. -/
theorem not_mask_of_mask_three (h : b₀ &&& 0xF0 = 0xE0) : ¬ b₀ < 0x80 ∧ ¬ b₀ &&& 0xE0 = 0xC0 := by
  rw [mask_three_iff] at h
  rw [mask_two_iff, UInt8.lt_iff_toNat_lt]
  exact ⟨by simp only [UInt8.reduceToNat]; omega, by omega⟩

theorem not_lt_of_mask_two (h : b₀ &&& 0xE0 = 0xC0) : ¬ b₀ < 0x80 := by
  rw [mask_two_iff] at h
  rw [UInt8.lt_iff_toNat_lt]
  simp only [UInt8.reduceToNat]
  omega

theorem not_mask_of_mask_four (h : b₀ &&& 0xF8 = 0xF0) :
    ¬ b₀ < 0x80 ∧ ¬ b₀ &&& 0xE0 = 0xC0 ∧ ¬ b₀ &&& 0xF0 = 0xE0 := by
  rw [mask_four_iff] at h
  rw [mask_two_iff, mask_three_iff, UInt8.lt_iff_toNat_lt]
  exact ⟨by simp only [UInt8.reduceToNat]; omega, by omega, by omega⟩

theorem isValid_cons_of_lt (h : b₀ < 0x80) (rest : Bytes) : isValid (b₀ :: rest) = isValid rest := by
  rw [isValid.eq_def]
  exact if_pos h

theorem isValid_cons_of_mask_two (h : b₀ &&& 0xE0 = 0xC0) (rest : Bytes) :
    isValid (b₀ :: rest) =
      match rest with
      | b₁ :: rest => isContinuation b₁ && 0x80 ≤ codePoint2 b₀ b₁ && isValid rest
      | _ => false := by
  have hlow := not_lt_of_mask_two h
  rw [isValid.eq_def]
  dsimp only
  rw [if_neg hlow, if_pos (by simpa using h)]
  rfl

theorem isValid_cons_of_mask_three (h : b₀ &&& 0xF0 = 0xE0) (rest : Bytes) :
    isValid (b₀ :: rest) =
      match rest with
      | b₁ :: b₂ :: rest =>
        isContinuation b₁ && isContinuation b₂ && 0x800 ≤ codePoint3 b₀ b₁ b₂
          && isScalar (codePoint3 b₀ b₁ b₂) && isValid rest
      | _ => false := by
  obtain ⟨hlow, htwo⟩ := not_mask_of_mask_three h
  rw [isValid.eq_def]
  dsimp only
  rw [if_neg hlow, if_neg (by simpa using htwo), if_pos (by simpa using h)]
  rfl

theorem isValid_cons_of_mask_four (h : b₀ &&& 0xF8 = 0xF0) (rest : Bytes) :
    isValid (b₀ :: rest) =
      match rest with
      | b₁ :: b₂ :: b₃ :: rest =>
        isContinuation b₁ && isContinuation b₂ && isContinuation b₃
          && 0x10000 ≤ codePoint4 b₀ b₁ b₂ b₃ && isScalar (codePoint4 b₀ b₁ b₂ b₃) && isValid rest
      | _ => false := by
  obtain ⟨hlow, htwo, hthree⟩ := not_mask_of_mask_four h
  rw [isValid.eq_def]
  dsimp only
  rw [if_neg hlow, if_neg (by simpa using htwo), if_neg (by simpa using hthree),
    if_pos (by simpa using h)]
  rfl

theorem isValid_cons_of_no_mask (hlow : ¬ b₀ < 0x80) (htwo : ¬ b₀ &&& 0xE0 = 0xC0)
    (hthree : ¬ b₀ &&& 0xF0 = 0xE0) (hfour : ¬ b₀ &&& 0xF8 = 0xF0) (rest : Bytes) :
    isValid (b₀ :: rest) = false := by
  rw [isValid.eq_def]
  dsimp only
  rw [if_neg hlow, if_neg (by simpa using htwo), if_neg (by simpa using hthree),
    if_neg (by simpa using hfour)]

end Front

/-- The check passes over the encoding of a character. -/
theorem isValid_encodeChar_append (c : Char) (rest : Bytes) :
    isValid (String.utf8EncodeChar c ++ rest) = isValid rest := by
  have hscalar := isScalar_toNat c
  obtain ⟨b, h⟩ | ⟨b₀, b₁, h⟩ | ⟨b₀, b₁, b₂, h⟩ | ⟨b₀, b₁, b₂, b₃, h⟩ := encodeChar_cases c
  · have hb := (encodeChar_eq_one_iff.1 h).1
    rw [h, List.singleton_append, isValid_cons_of_lt hb]
  · obtain ⟨⟨h₀, h₁, hleast⟩, -⟩ := encodeChar_eq_two_iff.1 h
    rw [h, List.cons_append, isValid_cons_of_mask_two h₀]
    simp [h₁, hleast]
  · obtain ⟨⟨h₀, h₁, h₂, hleast⟩, hc⟩ := encodeChar_eq_three_iff.1 h
    rw [hc] at hscalar
    rw [h, List.cons_append, isValid_cons_of_mask_three h₀]
    simp [h₁, h₂, hleast, hscalar]
  · obtain ⟨⟨h₀, h₁, h₂, h₃, hleast⟩, hc⟩ := encodeChar_eq_four_iff.1 h
    rw [hc] at hscalar
    rw [h, List.cons_append, isValid_cons_of_mask_four h₀]
    simp [h₁, h₂, h₃, hleast, hscalar]

/-- What passes the check starts with the encoding of a character, and the rest passes it. -/
theorem exists_char_of_isValid_cons {b : UInt8} {bs : Bytes} (h : isValid (b :: bs) = true) :
    ∃ c rest, b :: bs = String.utf8EncodeChar c ++ rest ∧ isValid rest = true := by
  by_cases hlow : b < 0x80
  · rw [isValid_cons_of_lt hlow] at h
    have hb : b.toNat < 128 := UInt8.lt_iff_toNat_lt.1 hlow
    obtain ⟨c, hc⟩ := exists_char_of_isScalar ((isScalar_eq_true_iff b.toNat).2 (.inl (by omega)))
    exact ⟨c, bs, by rw [encodeChar_eq_one_iff.2 ⟨hlow, hc⟩]; rfl, h⟩
  by_cases htwo : b &&& 0xE0 = 0xC0
  · rw [isValid_cons_of_mask_two htwo] at h
    split at h
    · rename_i b₁ rest
      simp only [Bool.and_eq_true, decide_eq_true_eq] at h
      obtain ⟨⟨h₁, hleast⟩, hrest⟩ := h
      have hscalar : isScalar (codePoint2 b b₁) = true := by
        refine (isScalar_eq_true_iff _).2 (.inl ?_)
        rw [codePoint2_eq]
        omega
      obtain ⟨c, hc⟩ := exists_char_of_isScalar hscalar
      exact ⟨c, rest, by rw [encodeChar_eq_two_iff.2 ⟨⟨htwo, h₁, hleast⟩, hc⟩]; rfl, hrest⟩
    · cases h
  by_cases hthree : b &&& 0xF0 = 0xE0
  · rw [isValid_cons_of_mask_three hthree] at h
    split at h
    · rename_i b₁ b₂ rest
      simp only [Bool.and_eq_true, decide_eq_true_eq] at h
      obtain ⟨⟨⟨⟨h₁, h₂⟩, hleast⟩, hscalar⟩, hrest⟩ := h
      obtain ⟨c, hc⟩ := exists_char_of_isScalar hscalar
      exact ⟨c, rest, by rw [encodeChar_eq_three_iff.2 ⟨⟨hthree, h₁, h₂, hleast⟩, hc⟩]; rfl, hrest⟩
    · cases h
  by_cases hfour : b &&& 0xF8 = 0xF0
  · rw [isValid_cons_of_mask_four hfour] at h
    split at h
    · rename_i b₁ b₂ b₃ rest
      simp only [Bool.and_eq_true, decide_eq_true_eq] at h
      obtain ⟨⟨⟨⟨⟨h₁, h₂⟩, h₃⟩, hleast⟩, hscalar⟩, hrest⟩ := h
      obtain ⟨c, hc⟩ := exists_char_of_isScalar hscalar
      exact ⟨c, rest, by rw [encodeChar_eq_four_iff.2 ⟨⟨hfour, h₁, h₂, h₃, hleast⟩, hc⟩]; rfl, hrest⟩
    · cases h
  · rw [isValid_cons_of_no_mask hlow htwo hthree hfour] at h
    cases h

/-! ### Every character -/

theorem isValid_encode (cs : List Char) : isValid (encode cs) = true := by
  induction cs with
  | nil => rfl
  | cons c cs ih =>
    show isValid (String.utf8EncodeChar c ++ encode cs) = true
    rw [isValid_encodeChar_append, ih]

theorem exists_encode_of_isValid {bs : Bytes} (h : isValid bs = true) : ∃ cs, bs = encode cs := by
  -- By the number of bytes: a character has at least one, so what is behind it is shorter.
  induction hn : bs.length using Nat.strong_induction_on generalizing bs with
  | _ n ih =>
    cases bs with
    | nil => exact ⟨[], rfl⟩
    | cons b bs =>
      obtain ⟨c, rest, heq, hrest⟩ := exists_char_of_isValid_cons h
      have hlen : rest.length < n := by
        have hc := c.utf8Size_pos
        rw [← hn, heq, List.length_append, String.length_utf8EncodeChar]
        omega
      obtain ⟨cs, rfl⟩ := ih rest.length hlen hrest rfl
      exact ⟨c :: cs, heq⟩

theorem isValid_eq_true_iff {bs : Bytes} : isValid bs = true ↔ ∃ cs, bs = encode cs := by
  constructor
  · exact exists_encode_of_isValid
  · rintro ⟨cs, rfl⟩
    exact isValid_encode cs

/-! ### The check as a loop over places -/

/-- What the first byte of a character of several bytes announces. -/
structure Announcement where
  /-- The number of bytes behind it. -/
  extra : Nat
  /-- The bits of the code point that it carries itself. -/
  bits : UInt32
  /-- The least code point that needs as many bytes. -/
  least : UInt32

/-- What a byte announces, if a character of several bytes can start with it. -/
def announcement? (b : UInt8) : Option Announcement :=
  if b &&& 0xE0 == 0xC0 then some ⟨1, (b &&& 0x1F).toUInt32, 0x80⟩
  else if b &&& 0xF0 == 0xE0 then some ⟨2, (b &&& 0x0F).toUInt32, 0x800⟩
  else if b &&& 0xF8 == 0xF0 then some ⟨3, (b &&& 0x07).toUInt32, 0x10000⟩
  else none

/-- The code point `v` with the bits of `extra` bytes from place `i` on, if all of them are continuation
bytes. There is no result at all where a place outside the string is read. -/
def continueAt (bs : Bytes) : (extra i : Nat) → (v : UInt32) → Option (Option UInt32)
  | 0, _, v => some (some v)
  | extra + 1, i, v =>
    match bs[i]? with
    | none => none
    | some b =>
      if isContinuation b then continueAt bs extra (i + 1) (v <<< 6 ||| (b &&& 0x3F).toUInt32)
      else some none

/-- The check from place `i` on. There is no result where a place outside the string is read. -/
def scan (bs : Bytes) (i : Nat) : Option Bool :=
  if _h : i < bs.length then
    match bs[i]? with
    | none => none
    | some b =>
      if b < 0x80 then scan bs (i + 1)
      else
        match announcement? b with
        | none => some false
        | some a =>
          if bs.length - i ≤ a.extra then some false
          else
            match continueAt bs a.extra (i + 1) a.bits with
            | none => none
            | some none => some false
            | some (some v) =>
              if v < a.least ∨ (0xD800 ≤ v ∧ v ≤ 0xDFFF) ∨ 0x10FFFF < v then some false
              else scan bs (i + (a.extra + 1))
  else some true
termination_by bs.length - i

/-- The code point `v` with the bits of continuation bytes. -/
def carried (v : Nat) (bs : Bytes) : Nat := bs.foldl (fun v b => v * 64 + continuationBits b) v

theorem continuationBits_lt (b : UInt8) : continuationBits b < 64 := by
  rw [continuationBits, (toNat_lowBits b).2.2.2]
  exact Nat.mod_lt _ (by decide)

/-- Shifting and filling in the free bits is multiplying and adding, while 32 bits hold the number. -/
theorem shiftLeft_or_eq {v : Nat} (h : (v + 1) * 64 ≤ UInt32.size) (b : UInt8) :
    UInt32.ofNat v <<< 6 ||| (b &&& 0x3F).toUInt32 = UInt32.ofNat (v * 64 + continuationBits b) := by
  have hb : continuationBits b < 2 ^ 6 := continuationBits_lt b
  have hsize : UInt32.size = 2 ^ 32 := rfl
  have hv : v < 2 ^ 32 := by omega
  have hshift : v <<< 6 = v * 64 := Nat.shiftLeft_eq v 6
  apply UInt32.toNat_inj.1
  rw [UInt32.toNat_or, UInt32.toNat_shiftLeft, UInt32.toNat_ofNat', UInt32.toNat_ofNat',
    UInt8.toNat_toUInt32, Nat.mod_eq_of_lt hv]
  show v <<< 6 % 2 ^ 32 ||| continuationBits b = _
  rw [Nat.mod_eq_of_lt (by omega), ← Nat.shiftLeft_add_eq_or_of_lt hb, hshift,
    Nat.mod_eq_of_lt (by omega)]

/-- Inside the string the loop over the continuation bytes has a result. -/
theorem continueAt_eq {bs : Bytes} {extra i v : Nat} (hin : i + extra ≤ bs.length)
    (hsmall : (v + 1) * 64 ^ extra ≤ UInt32.size) :
    continueAt bs extra i (UInt32.ofNat v) =
      some (if ((bs.drop i).take extra).all isContinuation then
        some (UInt32.ofNat (carried v ((bs.drop i).take extra))) else none) := by
  induction extra generalizing i v with
  | zero => simp [continueAt, carried]
  | succ extra ih =>
    have hi : i < bs.length := by omega
    have hone : (v + 1) * 64 ≤ UInt32.size := by
      refine Nat.le_trans (Nat.mul_le_mul_left _ ?_) hsmall
      rw [Nat.pow_succ]
      exact Nat.le_mul_of_pos_left 64 (Nat.pow_pos (by decide))
    have hnext : (v * 64 + continuationBits bs[i] + 1) * 64 ^ extra ≤ UInt32.size := by
      have hb := continuationBits_lt bs[i]
      rw [Nat.pow_succ', ← Nat.mul_assoc] at hsmall
      exact Nat.le_trans (Nat.mul_le_mul_right _ (by omega)) hsmall
    rw [List.drop_eq_getElem_cons hi, List.take_succ_cons, List.all_cons, continueAt,
      List.getElem?_eq_getElem hi]
    dsimp only
    by_cases hc : isContinuation bs[i] = true
    · rw [if_pos hc, shiftLeft_or_eq hone, ih (by omega) hnext, hc, Bool.true_and]
      rfl
    · simp [hc]

theorem announcement?_cases {b : UInt8} {a : Announcement} (h : announcement? b = some a) :
    (b &&& 0xE0 = 0xC0 ∧ a = ⟨1, (b &&& 0x1F).toUInt32, 0x80⟩) ∨
      (b &&& 0xF0 = 0xE0 ∧ a = ⟨2, (b &&& 0x0F).toUInt32, 0x800⟩) ∨
        (b &&& 0xF8 = 0xF0 ∧ a = ⟨3, (b &&& 0x07).toUInt32, 0x10000⟩) := by
  unfold announcement? at h
  split at h
  · rename_i htwo
    exact .inl ⟨by simpa using htwo, (Option.some.inj h).symm⟩
  · split at h
    · rename_i hthree
      exact .inr (.inl ⟨by simpa using hthree, (Option.some.inj h).symm⟩)
    · split at h
      · rename_i hfour
        exact .inr (.inr ⟨by simpa using hfour, (Option.some.inj h).symm⟩)
      · cases h

theorem isValid_cons_of_announcement?_eq_none {b : UInt8} (hlow : ¬ b < 0x80)
    (h : announcement? b = none) (rest : Bytes) : isValid (b :: rest) = false := by
  unfold announcement? at h
  split at h
  · cases h
  · split at h
    · cases h
    · split at h
      · cases h
      · simp_all [isValid_cons_of_no_mask]

/-- Whether the bytes behind a first byte make a character of what it announces. -/
def Announcement.accepts (a : Announcement) (behind : Bytes) : Bool :=
  behind.all isContinuation && (decide (a.least.toNat ≤ carried a.bits.toNat behind) &&
    isScalar (carried a.bits.toNat behind))

theorem isValid_cons_of_announcement {b : UInt8} {a : Announcement} (h : announcement? b = some a)
    (rest : Bytes) :
    isValid (b :: rest) =
      (decide (a.extra ≤ rest.length) && (a.accepts (rest.take a.extra) && isValid (rest.drop a.extra))) := by
  unfold Announcement.accepts
  obtain ⟨hmask, rfl⟩ | ⟨hmask, rfl⟩ | ⟨hmask, rfl⟩ := announcement?_cases h
  · rw [isValid_cons_of_mask_two hmask]
    cases rest with
    | nil => simp
    | cons b₁ rest =>
      have hscalar : isScalar (codePoint2 b b₁) = true := by
        refine (isScalar_eq_true_iff _).2 (.inl ?_)
        rw [codePoint2_eq]
        omega
      have hcarried : carried (b &&& 0x1F).toUInt32.toNat [b₁] = codePoint2 b b₁ := rfl
      simp only [List.take_succ_cons, List.take_zero, hcarried, hscalar]
      simp [Bool.and_assoc]
  · rw [isValid_cons_of_mask_three hmask]
    rcases rest with _ | ⟨b₁, _ | ⟨b₂, rest⟩⟩
    · simp
    · simp
    · have hcarried : carried (b &&& 0x0F).toUInt32.toNat [b₁, b₂] = codePoint3 b b₁ b₂ := rfl
      simp only [List.take_succ_cons, List.take_zero, hcarried]
      simp [Bool.and_assoc]
  · rw [isValid_cons_of_mask_four hmask]
    rcases rest with _ | ⟨b₁, _ | ⟨b₂, _ | ⟨b₃, rest⟩⟩⟩
    · simp
    · simp
    · simp
    · have hcarried : carried (b &&& 0x07).toUInt32.toNat [b₁, b₂, b₃] = codePoint4 b b₁ b₂ b₃ := rfl
      simp only [List.take_succ_cons, List.take_zero, hcarried]
      simp [Bool.and_assoc]

/-- The bits of a first byte leave room in 32 bits for those of the bytes behind it. -/
theorem Announcement.room {b : UInt8} {a : Announcement} (h : announcement? b = some a) :
    (a.bits.toNat + 1) * 64 ^ a.extra ≤ UInt32.size := by
  obtain ⟨-, rfl⟩ | ⟨-, rfl⟩ | ⟨-, rfl⟩ := announcement?_cases h
  · have hb : (b &&& 0x1F).toNat < 32 := by
      rw [(toNat_lowBits b).2.2.1]
      omega
    show ((b &&& 0x1F).toNat + 1) * 64 ^ 1 ≤ 2 ^ 32
    omega
  · have hb : (b &&& 0x0F).toNat < 16 := by
      rw [(toNat_lowBits b).2.1]
      omega
    show ((b &&& 0x0F).toNat + 1) * 64 ^ 2 ≤ 2 ^ 32
    omega
  · have hb : (b &&& 0x07).toNat < 8 := by
      rw [(toNat_lowBits b).1]
      omega
    show ((b &&& 0x07).toNat + 1) * 64 ^ 3 ≤ 2 ^ 32
    omega

/-- Bytes add bits below those that are there, so what 32 bits hold at the end they held all along. -/
theorem carried_lt (bs : Bytes) (v : Nat) : carried v bs < (v + 1) * 64 ^ bs.length := by
  induction bs generalizing v with
  | nil => simp [carried]
  | cons b bs ih =>
    have hb := continuationBits_lt b
    refine Nat.lt_of_lt_of_le (ih (v * 64 + continuationBits b)) ?_
    rw [List.length_cons, Nat.pow_succ', ← Nat.mul_assoc]
    exact Nat.mul_le_mul_right _ (by omega)

theorem refused_iff {v : Nat} (hv : v < UInt32.size) (least : UInt32) :
    (UInt32.ofNat v < least ∨ (0xD800 ≤ UInt32.ofNat v ∧ UInt32.ofNat v ≤ 0xDFFF) ∨
      0x10FFFF < UInt32.ofNat v) ↔ (decide (least.toNat ≤ v) && isScalar v) = false := by
  have hof : (UInt32.ofNat v).toNat = v := by rw [UInt32.toNat_ofNat', Nat.mod_eq_of_lt hv]
  have hscalar := isScalar_eq_true_iff v
  simp only [UInt32.lt_iff_toNat_lt, UInt32.le_iff_toNat_le, hof, UInt32.reduceToNat]
  rw [Bool.and_eq_false_iff, decide_eq_false_iff_not, ← Bool.not_eq_true, hscalar, Nat.isValidChar]
  omega

/-- What the scan does behind a first byte, where the announced bytes are there. -/
theorem scan_behind_announcement {bs : Bytes} {i : Nat} {b : UInt8} {a : Announcement}
    (ha : announcement? b = some a) (hin : i + a.extra ≤ bs.length) (next : Option Bool) :
    (match continueAt bs a.extra i a.bits with
      | none => none
      | some none => some false
      | some (some v) =>
        if v < a.least ∨ (0xD800 ≤ v ∧ v ≤ 0xDFFF) ∨ 0x10FFFF < v then some false else next) =
      if a.accepts ((bs.drop i).take a.extra) then next else some false := by
  have hread := continueAt_eq hin (Announcement.room ha)
  have hlen : ((bs.drop i).take a.extra).length = a.extra := by
    rw [List.length_take, List.length_drop]
    omega
  generalize (bs.drop i).take a.extra = behind at hread hlen
  have hsize : carried a.bits.toNat behind < UInt32.size := by
    refine Nat.lt_of_lt_of_le (carried_lt _ _) ?_
    rw [hlen]
    exact Announcement.room ha
  rw [UInt32.ofNat_toNat] at hread
  rw [hread, Announcement.accepts]
  by_cases hall : behind.all isContinuation = true
  · rw [if_pos hall, hall, Bool.true_and]
    dsimp only
    by_cases hrefused : (decide (a.least.toNat ≤ carried a.bits.toNat behind) &&
        isScalar (carried a.bits.toNat behind)) = false
    · rw [if_pos ((refused_iff hsize a.least).2 hrefused), if_neg (by simp [hrefused])]
    · rw [if_neg (mt (refused_iff hsize a.least).1 hrefused), if_pos (eq_true_of_ne_false hrefused)]
  · rw [if_neg hall, if_neg (by simp [hall])]

/-- **The scan reads inside the string only**, and what it says is the check from its place on. -/
theorem scan_eq (bs : Bytes) (i : Nat) : scan bs i = some (isValid (bs.drop i)) := by
  -- By the number of bytes from the place on, as the loop ends.
  induction hn : bs.length - i using Nat.strong_induction_on generalizing i with
  | _ n ih =>
    rw [scan]
    by_cases hi : i < bs.length
    · rw [dif_pos hi, List.getElem?_eq_getElem hi, List.drop_eq_getElem_cons hi]
      dsimp only
      by_cases hlow : bs[i] < 0x80
      · rw [if_pos hlow, isValid_cons_of_lt hlow]
        exact ih (bs.length - (i + 1)) (by omega) (i + 1) rfl
      · rw [if_neg hlow]
        cases ha : announcement? bs[i] with
        | none => rw [isValid_cons_of_announcement?_eq_none hlow ha]
        | some a =>
          dsimp only
          rw [isValid_cons_of_announcement ha, List.length_drop]
          by_cases hroom : bs.length - i ≤ a.extra
          · have hshort : ¬ a.extra ≤ bs.length - (i + 1) := by omega
            rw [if_pos hroom, decide_eq_false hshort, Bool.false_and]
          · have hfits : a.extra ≤ bs.length - (i + 1) := by omega
            rw [if_neg hroom, scan_behind_announcement ha (by omega), decide_eq_true hfits,
              Bool.true_and, List.drop_drop]
            by_cases haccepts : a.accepts ((bs.drop (i + 1)).take a.extra) = true
            · rw [if_pos haccepts, haccepts, Bool.true_and, Nat.add_assoc, Nat.add_comm 1]
              exact ih (bs.length - (i + (a.extra + 1))) (by omega) _ rfl
            · rw [if_neg haccepts, eq_false_of_ne_true haccepts, Bool.false_and]
    · rw [dif_neg hi, List.drop_eq_nil_of_le (Nat.le_of_not_lt hi)]
      rfl

end Utf8

/-! ### Texts on the wire -/

namespace Decoder

variable {α β : Type} {P : CodecFault → Prop}

/-- All faults of a decoder obey `P`. -/
def FailsOnlyWith (d : Decoder α) (P : CodecFault → Prop) : Prop :=
  ∀ c e c', d c = .error e c' → P e

theorem failsOnlyWith_pure (a : α) : (pure a : Decoder α).FailsOnlyWith P := by
  intro c e c' h
  cases h

theorem FailsOnlyWith.bind {d : Decoder α} {k : α → Decoder β} (hd : d.FailsOnlyWith P)
    (hk : ∀ c a c', d c = .ok a c' → (k a).FailsOnlyWith P) : (d >>= k).FailsOnlyWith P := by
  intro c e c' h
  obtain hfirst | ⟨a, c₁, ha, hsecond⟩ := Step.bind_eq_error_iff.1 h
  · exact hd c e c' hfirst
  · exact hk c a c₁ ha c₁ e c' hsecond

theorem failsOnlyWith_ofExcept {x : Except CodecFault α} (h : ∀ e, x = .error e → P e) :
    (ofExcept x).FailsOnlyWith P := by
  intro c e c' hx
  cases x with
  | ok a => cases hx
  | error e' =>
    cases hx
    exact h e rfl

theorem take_failsOnlyWith (n : Nat) (hP : P .truncated) : (take n).FailsOnlyWith P := by
  intro c e c' h
  unfold take at h
  split at h
  · cases h
  · cases h
    exact hP

theorem number_failsOnlyWith (n : Nat) (hP : P .truncated) : (number n).FailsOnlyWith P :=
  (take_failsOnlyWith n hP).bind fun _ _ _ _ => failsOnlyWith_pure _

theorem items_failsOnlyWith {item : Decoder α} (h : item.FailsOnlyWith P) (n : Nat)
    (before : List α) : (items item n before).FailsOnlyWith P := by
  induction n generalizing before with
  | zero => exact failsOnlyWith_pure _
  | succ n ih => exact h.bind fun _ a _ _ => ih (a :: before)

/-- A length that is refused is missing, or too great for its type or for what is behind it; the width of
its prefix is never at fault. -/
theorem eq_of_length_eq_error {b : LengthBound} {c c' : Cursor} {e : CodecFault}
    (h : length b.width b.max c = .error e c') :
    c' = c ∧ (e = .truncated ∨ e = .lengthOverBound ∨ e = .lengthOverInput) := by
  unfold length at h
  rw [if_pos b.width_mem] at h
  cases hn : number b.width c with
  | error e₁ c₁ =>
    rw [hn] at h
    cases h
    exact ⟨rfl, .inl (number_failsOnlyWith (P := (· = .truncated)) b.width rfl c _ _ hn)⟩
  | ok n c₁ =>
    rw [hn] at h
    dsimp only at h
    split at h
    · cases h
      exact ⟨rfl, .inr (.inl rfl)⟩
    · split at h
      · cases h
      · cases h
        exact ⟨rfl, .inr (.inr rfl)⟩

theorem length_failsOnlyWith (b : LengthBound) :
    (length b.width b.max).FailsOnlyWith (·.kind ≠ .invalidArgument) := by
  intro c e c' h
  obtain ⟨-, rfl | rfl | rfl⟩ := eq_of_length_eq_error h
  all_goals exact ErrorKind.noConfusion

end Decoder

/-- What reading a text at `c` comes to: no length, bytes that encode no characters, or a text of the
bytes behind the length. -/
inductive Text.Reading (b : LengthBound) (c : Cursor) : EStateM.Result CodecFault Cursor (Text b) → Prop
  /-- The length is refused, and the cursor stays where it is. -/
  | noLength {e : CodecFault} (refused : Decoder.length b.width b.max c = .error e c)
      (fault : e = .truncated ∨ e = .lengthOverBound ∨ e = .lengthOverInput) : Reading b c (.error e c)
  /-- The bytes behind the length are not the encoding of any characters. -/
  | notUtf8 {n : Nat} {c₁ : Cursor} (length : Decoder.length b.width b.max c = .ok n c₁)
      (encodes : ∀ cs, c₁.rest.take n ≠ Utf8.encode cs) : Reading b c (.error .wireTextNotUtf8 c₁)
  /-- The bytes behind the length are an encoding, and they are the text. -/
  | text {n : Nat} {c₁ : Cursor} {t : Text b} {cs : List Char}
      (length : Decoder.length b.width b.max c = .ok n c₁) (encoded : t.toBytes = Utf8.encode cs)
      (passes : c₁.Passes t.toBytes (c₁.advance n)) : Reading b c (.ok t (c₁.advance n))

theorem Text.reading (b : LengthBound) (c : Cursor) : Text.Reading b c ((WireFormat.text b).decode c) := by
  cases hlength : Decoder.length b.width b.max c with
  | error e c' =>
    obtain ⟨rfl, he⟩ := Decoder.eq_of_length_eq_error hlength
    have hdecode : (WireFormat.text b).decode c' = .error e c' := Step.bind_of_error hlength
    rw [hdecode]
    exact .noLength hlength he
  | ok n c₁ =>
    obtain ⟨hmax, -, hfits⟩ := Decoder.length_eq_ok_iff.1 hlength
    have hdecode : (WireFormat.text b).decode c =
        (Decoder.utf8 n >>= fun bs => Decoder.ofExcept (Text.ofBytes (b := b) bs)) c₁ :=
      Step.bind_of_ok hlength
    have hlen : (c₁.rest.take n).length = n := List.length_take_of_le hfits
    rw [hdecode]
    by_cases hvalid : Utf8.isValid (c₁.rest.take n) = true
    · have hpass := Cursor.passes_advance hfits
      have hutf8 := (Decoder.utf8_reads n c₁ _ _).2 ⟨⟨hlen, hvalid⟩, hpass⟩
      have hof : Text.ofBytes (b := b) (c₁.rest.take n) = .ok ⟨c₁.rest.take n, by omega, hvalid⟩ := by
        rw [Text.ofBytes, dif_pos (by omega), dif_pos hvalid]
      obtain ⟨cs, hcs⟩ := Utf8.isValid_eq_true_iff.1 hvalid
      rw [Step.bind_of_ok hutf8, hof]
      exact .text hlength hcs hpass
    · have hutf8 : Decoder.utf8 n c₁ = .error .wireTextNotUtf8 c₁ := if_neg hvalid
      rw [Step.bind_of_error hutf8]
      refine .notUtf8 hlength fun cs hcs => hvalid ?_
      exact Utf8.isValid_eq_true_iff.2 ⟨cs, hcs⟩

/-- Reading a value of any format, texts within sequences included, finds no fault with an argument of
its own: the constructors behind the reads are given what they accept. -/
theorem WireFormat.decode_failsOnlyWith (f : WireFormat) :
    f.decode.FailsOnlyWith (·.kind ≠ .invalidArgument) := by
  induction f with
  | u8 | u16 | u32 | u64 | f32 =>
    exact (Decoder.number_failsOnlyWith _ ErrorKind.noConfusion).bind fun _ _ _ _ =>
      Decoder.failsOnlyWith_pure _
  | u24 =>
    refine (Decoder.number_failsOnlyWith _ ErrorKind.noConfusion).bind fun _ v _ _ => ?_
    refine Decoder.failsOnlyWith_ofExcept fun e he => ?_
    unfold U24.ofUInt32 at he
    split at he
    · cases he
    · cases he
      exact ErrorKind.noConfusion
  | bool =>
    intro c e c' h
    simp only [WireFormat.decode, Decoder.bool] at h
    split at h
    · cases h
      exact ErrorKind.noConfusion
    · split at h
      · cases h
      · cases h
        exact ErrorKind.noConfusion
  | u256 | signature =>
    exact (Decoder.take_failsOnlyWith _ ErrorKind.noConfusion).bind fun _ _ _ _ =>
      Decoder.failsOnlyWith_pure _
  | bytes b =>
    refine (Decoder.length_failsOnlyWith b).bind fun _ n _ _ => ?_
    refine (Decoder.take_failsOnlyWith n ErrorKind.noConfusion).bind fun _ bs _ _ => ?_
    refine Decoder.failsOnlyWith_ofExcept fun e he => ?_
    unfold ByteString.ofBytes at he
    split at he
    · cases he
    · cases he
      exact ErrorKind.noConfusion
  | text b =>
    intro c e c' h
    have hreading := Text.reading b c
    rw [h] at hreading
    cases hreading with
    | noLength _ fault =>
      obtain rfl | rfl | rfl := fault
      all_goals exact ErrorKind.noConfusion
    | notUtf8 => exact ErrorKind.noConfusion
  | sequence item b ih =>
    refine (Decoder.length_failsOnlyWith b).bind fun _ n _ _ => ?_
    refine (Decoder.items_failsOnlyWith ih n []).bind fun _ items _ _ => ?_
    refine Decoder.failsOnlyWith_ofExcept fun e he => ?_
    unfold Sequence.ofList at he
    split at he
    · cases he
    · cases he
      exact ErrorKind.noConfusion

/-- **UTF-8 validation is exact.** A byte string passes the check if and only if it is the encoding of
some characters; the check as a loop over places says the same, and has a result, so that it reads no
place outside the string; a text read from the wire is what its length and its bytes make of it; and no
format, with a text anywhere in it, fails for an argument that is not UTF-8. -/
theorem utf8_validation_exact :
    (∀ bs, Utf8.isValid bs = true ↔ ∃ cs, bs = Utf8.encode cs) ∧
    (∀ bs, Utf8.scan bs 0 = some (Utf8.isValid bs)) ∧
    (∀ b c, Text.Reading b c ((WireFormat.text b).decode c)) ∧
    (∀ (f : WireFormat) c c', f.decode c ≠ .error .textNotUtf8 c') := by
  refine ⟨fun bs => Utf8.isValid_eq_true_iff, fun bs => ?_, Text.reading, fun f c c' h => ?_⟩
  · exact Utf8.scan_eq bs 0
  · exact f.decode_failsOnlyWith c _ c' h rfl

end Stratum
