import Mathlib.Data.List.GetD
import Stratum.KeyFile
import Stratum.Proofs.RadixChange

/-!
# Base 58 loses nothing

Keys are kept and handed on as base 58 text, so the text has to say which key it is, and every
text that is accepted has to be the text of one. This module proves both:

* `Base58.encode_numeral`, `Base58.decode?_numeral`: each direction keeps the zeros in front, one
  by one, and converts the numeral behind them, into a buffer that is long enough since
  `256 ^ 100 ≤ 58 ^ 138` and `58 ^ 1000 ≤ 256 ^ 733`;
* **`Base58.decode?_encode`**, **`Base58.OverAlphabet.exists_decode?`**: each direction undoes the other;
* **`Base58.exists_decode?_iff`**: what can be decoded is text over the alphabet between blanks, and
  the blanks do not count (`Base58.trim_of_between`);
* **`Base58.bijective_within_capacity`** puts this together with what no buffer loses.
-/

namespace Stratum.Base58

open Radix

/-! ### The alphabet -/

/-- A text over the 58 digits. -/
def OverAlphabet (t : Bytes) : Prop := ∀ c ∈ t, c ∈ alphabet

theorem length_alphabet : alphabet.length = 58 := by decide

theorem value?_digit : ∀ v < 58, value? (digit v) = some v := by decide

theorem zeroDigit_eq : zeroDigit = digit 0 := by decide

theorem isBlankOrLineEnd_digit : ∀ v < 58, isBlankOrLineEnd (digit v) = false := by decide

/-- A digit and its value say each other. -/
theorem value?_eq_some_iff {c : UInt8} {v : Nat} : value? c = some v ↔ v < 58 ∧ digit v = c := by
  constructor
  · intro h
    obtain ⟨hv, hc, -⟩ := List.idxOf?_eq_some_iff.1 h
    refine ⟨length_alphabet ▸ hv, ?_⟩
    rw [digit, List.getD_eq_getElem _ _ hv, hc]
  · rintro ⟨hv, rfl⟩
    exact value?_digit v hv

theorem mem_alphabet_iff {c : UInt8} : c ∈ alphabet ↔ ∃ v, v < 58 ∧ digit v = c := by
  constructor
  · intro h
    obtain ⟨v, hv, hc⟩ := List.getElem_of_mem h
    refine ⟨v, length_alphabet ▸ hv, ?_⟩
    rw [digit, List.getD_eq_getElem _ _ hv, hc]
  · rintro ⟨v, hv, rfl⟩
    rw [← length_alphabet] at hv
    rw [digit, List.getD_eq_getElem _ _ hv]
    exact List.getElem_mem hv

theorem not_isBlankOrLineEnd {c : UInt8} (h : c ∈ alphabet) : isBlankOrLineEnd c = false := by
  obtain ⟨v, hv, rfl⟩ := mem_alphabet_iff.1 h
  exact isBlankOrLineEnd_digit v hv

theorem digit_injective {v w : Nat} (hv : v < 58) (hw : w < 58) (h : digit v = digit w) : v = w := by
  have hvalue := value?_digit v hv
  rw [h, value?_digit w hw] at hvalue
  exact (Option.some.inj hvalue).symm

/-- A text has values if and only if it is written with them. -/
theorem mapM_value?_eq_some_iff {t : Bytes} {ds : List Nat} :
    t.mapM value? = some ds ↔ (∀ d ∈ ds, d < 58) ∧ ds.map digit = t := by
  induction t generalizing ds with
  | nil => cases ds <;> simp
  | cons c t ih =>
    rw [List.mapM_cons]
    constructor
    · intro h
      obtain ⟨v, hv, h⟩ := Option.bind_eq_some_iff.1 h
      obtain ⟨vs, hvs, h⟩ := Option.bind_eq_some_iff.1 h
      cases h
      obtain ⟨hlt, rfl⟩ := value?_eq_some_iff.1 hv
      obtain ⟨hall, rfl⟩ := ih.1 hvs
      exact ⟨List.forall_mem_cons.2 ⟨hlt, hall⟩, rfl⟩
    · rintro ⟨hall, h⟩
      cases ds with
      | nil => cases h
      | cons v vs =>
        cases h
        obtain ⟨hlt, hall⟩ := List.forall_mem_cons.1 hall
        exact Option.bind_eq_some_iff.2 ⟨v, value?_digit v hlt,
          Option.bind_eq_some_iff.2 ⟨vs, ih.2 ⟨hall, rfl⟩, rfl⟩⟩

theorem overAlphabet_iff {t : Bytes} :
    OverAlphabet t ↔ ∃ ds : List Nat, (∀ d ∈ ds, d < 58) ∧ ds.map digit = t := by
  constructor
  · intro h
    induction t with
    | nil => exact ⟨[], by simp, rfl⟩
    | cons c t ih =>
      obtain ⟨v, hv, rfl⟩ := mem_alphabet_iff.1 (h c List.mem_cons_self)
      obtain ⟨vs, hvs, rfl⟩ := ih fun c hc => h c (List.mem_cons_of_mem _ hc)
      exact ⟨v :: vs, List.forall_mem_cons.2 ⟨hv, hvs⟩, rfl⟩
  · rintro ⟨ds, hds, rfl⟩ c hc
    obtain ⟨v, hv, rfl⟩ := List.mem_map.1 hc
    exact mem_alphabet_iff.2 ⟨v, hds v hv, rfl⟩

/-! ### Zeros in front -/

/-- A list is the copies of an element in front and what is behind them. -/
theorem exists_leading (z : UInt8) (xs : Bytes) :
    ∃ k ys, xs = List.replicate k z ++ ys ∧ ys.head? ≠ some z := by
  refine ⟨(xs.takeWhile (· == z)).length, xs.dropWhile (· == z), ?_, head?_dropWhile_ne z xs⟩
  rw [← takeWhile_eq_replicate, List.takeWhile_append_dropWhile]

/-- The copies in front are found. -/
theorem takeWhile_leading {z : UInt8} {ys : Bytes} (k : Nat) (h : ys.head? ≠ some z) :
    (List.replicate k z ++ ys).takeWhile (· == z) = List.replicate k z := by
  have hnone : ys.takeWhile (· == z) = [] := by
    cases ys with
    | nil => rfl
    | cons y ys =>
      have hne : (y == z) = false := beq_false_of_ne fun hy => h (congrArg some hy)
      simp [hne]
  have hcopies : ∀ x ∈ List.replicate k z, (x == z) = true := fun x hx =>
    beq_iff_eq.2 (List.eq_of_mem_replicate hx)
  rw [List.takeWhile_append_of_pos hcopies, hnone, List.append_nil]

/-- The digits of a numeral, written by whatever tells zero from the others, have no zero in front. -/
theorem head?_map_ne {base : Nat} {ds : List Nat} {f : Nat → UInt8} (h : IsNumeral base ds)
    (hf : ∀ d < base, f d = f 0 → d = 0) : (ds.map f).head? ≠ some (f 0) := by
  intro hzero
  cases ds with
  | nil => cases hzero
  | cons d ds =>
    rw [List.map_cons, List.head?_cons] at hzero
    exact h.head?_ne (congrArg some (hf d (h.lt d List.mem_cons_self) (Option.some.inj hzero)))

theorem map_ofNat_toNat (bs : Bytes) : (bs.map UInt8.toNat).map UInt8.ofNat = bs := by
  rw [List.map_map]
  exact List.map_id'' (fun b => UInt8.ofNat_toNat) bs

theorem map_toNat_ofNat {ns : List Nat} (h : ∀ n ∈ ns, n < 256) : (ns.map UInt8.ofNat).map UInt8.toNat = ns := by
  rw [List.map_map]
  exact (List.map_congr_left fun n hn => UInt8.toNat_ofNat_of_lt' (h n hn)).trans (List.map_id ns)

/-- A byte string is zeros and a numeral. -/
theorem exists_numeral (bs : Bytes) :
    ∃ k ns, IsNumeral 256 ns ∧ bs = List.replicate k 0 ++ ns.map UInt8.ofNat := by
  obtain ⟨k, ys, rfl, hhead⟩ := exists_leading 0 bs
  refine ⟨k, ys.map UInt8.toNat, ⟨fun n hn => ?_, fun hzero => hhead ?_⟩, by rw [map_ofNat_toNat]⟩
  · obtain ⟨y, -, rfl⟩ := List.mem_map.1 hn
    exact y.toNat_lt
  · cases ys with
    | nil => cases hzero
    | cons y ys =>
      rw [List.map_cons, List.head?_cons] at hzero
      exact congrArg some (UInt8.toNat_inj.1 (Option.some.inj hzero))

/-- A text over the alphabet is zeros and a numeral. -/
theorem OverAlphabet.exists_numeral {t : Bytes} (h : OverAlphabet t) :
    ∃ k ds, IsNumeral 58 ds ∧ t = List.replicate k zeroDigit ++ ds.map digit := by
  obtain ⟨k, ys, rfl, hhead⟩ := exists_leading zeroDigit t
  obtain ⟨ds, hds, rfl⟩ := overAlphabet_iff.1 fun c hc => h c (List.mem_append_right _ hc)
  refine ⟨k, ds, ⟨hds, fun hzero => hhead ?_⟩, rfl⟩
  rw [List.head?_map, hzero, zeroDigit_eq]
  rfl

/-! ### Both directions -/

/-- The base 58 numeral that the bytes of a numeral are converted into. -/
def toDigits (ns : List Nat) : List Nat := significant (convert 256 58 (encodedCapacity ns.length) ns)

/-- The base 256 numeral that the digits of a numeral are converted into. -/
def toBytes (ds : List Nat) : List Nat := significant (convert 58 256 (decodedCapacity ds.length) ds)

theorem pow_le_encodedCapacity (n : Nat) : 256 ^ n ≤ 58 ^ encodedCapacity n :=
  pow_le_pow_of_ratio (by decide) (by decide) (by decide +kernel) n

theorem pow_le_decodedCapacity (n : Nat) : 58 ^ n ≤ 256 ^ decodedCapacity n :=
  pow_le_pow_of_ratio (by decide) (by decide) (by decide +kernel) n

theorem isNumeral_toDigits (ns : List Nat) : IsNumeral 58 (toDigits ns) :=
  isNumeral_significant (lt_of_mem_convert (by decide) ns)

theorem isNumeral_toBytes (ds : List Nat) : IsNumeral 256 (toBytes ds) :=
  isNumeral_significant (lt_of_mem_convert (by decide) ds)

theorem toBytes_toDigits {ns : List Nat} (h : IsNumeral 256 ns) : toBytes (toDigits ns) = ns :=
  convert_back (by decide) (by decide) h (pow_le_encodedCapacity _) (pow_le_decodedCapacity _)

theorem toDigits_toBytes {ds : List Nat} (h : IsNumeral 58 ds) : toDigits (toBytes ds) = ds :=
  convert_back (by decide) (by decide) h (pow_le_decodedCapacity _) (pow_le_encodedCapacity _)

/-- **Encoding keeps the zeros in front and converts the rest.** -/
theorem encode_numeral (k : Nat) {ns : List Nat} (h : IsNumeral 256 ns) :
    encode (List.replicate k 0 ++ ns.map UInt8.ofNat)
      = List.replicate k zeroDigit ++ (toDigits ns).map digit := by
  have hhead : (ns.map UInt8.ofNat).head? ≠ some 0 := head?_map_ne h fun n hn hzero => by
    rw [← UInt8.toNat_inj, UInt8.toNat_ofNat_of_lt' hn] at hzero
    exact hzero
  unfold encode
  dsimp only
  rw [takeWhile_leading k hhead, List.length_replicate, List.drop_left' List.length_replicate,
    map_toNat_ofNat h.lt, toDigits]

theorem OverAlphabet.digits {ds : List Nat} (k : Nat) (h : ∀ d ∈ ds, d < 58) :
    OverAlphabet (List.replicate k zeroDigit ++ ds.map digit) := by
  intro c hc
  rcases List.mem_append.1 hc with hc | hc
  · rw [List.eq_of_mem_replicate hc]
    decide
  · exact overAlphabet_iff.2 ⟨ds, h, rfl⟩ c hc

/-- What is encoded is text over the alphabet. -/
theorem overAlphabet_encode (bs : Bytes) : OverAlphabet (encode bs) := by
  obtain ⟨k, ns, hns, rfl⟩ := exists_numeral bs
  rw [encode_numeral k hns]
  exact .digits k (isNumeral_toDigits ns).lt

/-! ### Blanks -/

/-- A text is another one between blanks: spaces and tabs in front of it, and behind it these and line ends. -/
def Between (t text : Bytes) : Prop :=
  ∃ front behind, text = front ++ t ++ behind ∧ (∀ c ∈ front, c = 0x20 ∨ c = 0x09) ∧
    ∀ c ∈ behind, c = 0x20 ∨ c = 0x09 ∨ c = 0x0D ∨ c = 0x0A

theorem isBlank_iff {c : UInt8} : isBlank c = true ↔ c = 0x20 ∨ c = 0x09 := by
  simp [isBlank]

theorem isBlankOrLineEnd_iff {c : UInt8} :
    isBlankOrLineEnd c = true ↔ c = 0x20 ∨ c = 0x09 ∨ c = 0x0D ∨ c = 0x0A := by
  simp [isBlankOrLineEnd, isBlank]
  tauto

/-- A text is what is left of it between the blanks that it loses. -/
theorem between_trim (text : Bytes) : Between (trim text) text := by
  let rest := text.dropWhile isBlank
  refine ⟨text.takeWhile isBlank, (rest.reverse.takeWhile isBlankOrLineEnd).reverse, ?_, fun c hc => ?_,
    fun c hc => ?_⟩
  · rw [trim, List.append_assoc, ← List.reverse_append, List.takeWhile_append_dropWhile, List.reverse_reverse,
      List.takeWhile_append_dropWhile]
  · exact isBlank_iff.1 (List.mem_takeWhile_imp hc)
  · exact isBlankOrLineEnd_iff.1 (List.mem_takeWhile_imp (List.mem_reverse.1 hc))

/-- In front of digits nothing is a blank, so that those which are lost there are behind. -/
theorem OverAlphabet.dropWhile_isBlank {t : Bytes} (h : OverAlphabet t) (behind : Bytes) :
    ∃ kept, (t ++ behind).dropWhile isBlank = t ++ kept ∧ ∀ c ∈ kept, c ∈ behind := by
  cases t with
  | nil => exact ⟨behind.dropWhile isBlank, rfl, fun c hc => (List.dropWhile_sublist _).mem hc⟩
  | cons c t =>
    have hc : isBlank c = false := by
      have hnone := not_isBlankOrLineEnd (h c List.mem_cons_self)
      simp only [isBlankOrLineEnd, Bool.or_eq_false_iff] at hnone
      exact hnone.1.1
    refine ⟨behind, ?_, fun c hc => hc⟩
    rw [List.cons_append, List.dropWhile_cons_of_neg (by rw [hc]; exact Bool.false_ne_true)]

/-- **What is left of digits between blanks is the digits.** -/
theorem trim_of_between {t text : Bytes} (ht : OverAlphabet t) (h : Between t text) : trim text = t := by
  obtain ⟨front, behind, rfl, hfront, hbehind⟩ := h
  obtain ⟨kept, hkept, hmem⟩ := ht.dropWhile_isBlank behind
  have hback : ∀ c ∈ kept.reverse, isBlankOrLineEnd c = true := fun c hc =>
    isBlankOrLineEnd_iff.2 (hbehind c (hmem c (List.mem_reverse.1 hc)))
  have hdigits : t.reverse.dropWhile isBlankOrLineEnd = t.reverse := by
    refine List.dropWhile_eq_self_iff.2 fun hpos => ?_
    rw [not_isBlankOrLineEnd (ht _ (List.mem_reverse.1 (List.getElem_mem hpos)))]
    exact Bool.false_ne_true
  rw [trim, List.append_assoc, List.dropWhile_append_of_pos fun c hc => isBlank_iff.2 (hfront c hc), hkept,
    List.reverse_append, List.dropWhile_append_of_pos hback, hdigits, List.reverse_reverse]

theorem between_refl (t : Bytes) : Between t t :=
  ⟨[], [], by simp, by simp, by simp⟩

/-! ### Decoding -/

/-- **Decoding keeps the zeros in front and converts the rest.** -/
theorem decode?_numeral (k : Nat) {ds : List Nat} (h : IsNumeral 58 ds) :
    decode? (List.replicate k zeroDigit ++ ds.map digit)
      = some (List.replicate k 0 ++ (toBytes ds).map UInt8.ofNat) := by
  have hhead : (ds.map digit).head? ≠ some zeroDigit := zeroDigit_eq ▸ head?_map_ne h fun d hd hzero =>
    digit_injective hd (by decide) hzero
  have hvalues : (ds.map digit).mapM value? = some ds := mapM_value?_eq_some_iff.2 ⟨h.lt, rfl⟩
  unfold decode?
  dsimp only
  rw [trim_of_between (.digits k h.lt) (between_refl _), takeWhile_leading k hhead, List.length_replicate,
    List.drop_left' List.length_replicate, hvalues]
  rfl

/-- **What is encoded is decoded.** -/
theorem decode?_encode (bs : Bytes) : decode? (encode bs) = some bs := by
  obtain ⟨k, ns, hns, rfl⟩ := exists_numeral bs
  rw [encode_numeral k hns, decode?_numeral k (isNumeral_toDigits ns), toBytes_toDigits hns]

/-- **What is decoded is encoded as it was.** -/
theorem OverAlphabet.exists_decode? {t : Bytes} (h : OverAlphabet t) :
    ∃ bs, decode? t = some bs ∧ encode bs = t := by
  obtain ⟨k, ds, hds, rfl⟩ := h.exists_numeral
  refine ⟨_, decode?_numeral k hds, ?_⟩
  rw [encode_numeral k (isNumeral_toBytes ds), toDigits_toBytes hds]

/-- Blanks do not count. -/
theorem decode?_of_between {t text : Bytes} (ht : OverAlphabet t) (h : Between t text) :
    decode? text = decode? t := by
  unfold decode?
  rw [trim_of_between ht h, trim_of_between ht (between_refl t)]

/-- **What is decoded is text over the alphabet between blanks.** -/
theorem overAlphabet_of_decode? {text bs : Bytes} (h : decode? text = some bs) : OverAlphabet (trim text) := by
  obtain ⟨k, ys, htrim, hhead⟩ := exists_leading zeroDigit (trim text)
  unfold decode? at h
  dsimp only at h
  rw [htrim, takeWhile_leading k hhead, List.drop_left] at h
  obtain ⟨ds, hvalues, -⟩ := Option.bind_eq_some_iff.1 h
  obtain ⟨hlt, rfl⟩ := mapM_value?_eq_some_iff.1 hvalues
  rw [htrim]
  exact .digits k hlt

/-- What is decoded is text over the alphabet between blanks, and nothing else is. -/
theorem exists_decode?_iff {text : Bytes} :
    (∃ bs, decode? text = some bs) ↔ ∃ t, OverAlphabet t ∧ Between t text := by
  constructor
  · rintro ⟨bs, h⟩
    exact ⟨trim text, overAlphabet_of_decode? h, between_trim text⟩
  · rintro ⟨t, ht, hbetween⟩
    obtain ⟨bs, hbs, -⟩ := ht.exists_decode?
    exact ⟨bs, (decode?_of_between ht hbetween).trans hbs⟩

/-! ### All of it -/

/-- **Base 58 is a bijection between byte strings and texts over the alphabet.** What is read is such a text
between blanks, with the result of the text alone; a key file with anything else is refused as a caller's
mistake. And in both conversions nothing is lost: at the end of each pass nothing is left to be carried, also if
there is room for more digits than are converted, as when a text is refused on the way. -/
theorem bijective_within_capacity :
    (∀ bs, OverAlphabet (encode bs) ∧ decode? (encode bs) = some bs) ∧
    (∀ t, OverAlphabet t → ∃ bs, decode? t = some bs ∧ encode bs = t) ∧
    (∀ text, (∃ bs, decode? text = some bs) ↔ ∃ t, OverAlphabet t ∧ Between t text) ∧
    (∀ text t, OverAlphabet t → Between t text → decode? text = decode? t) ∧
    (∀ text, (¬ ∃ t, OverAlphabet t ∧ Between t text) →
      ∃ fault, KeyFile.parse text = .error fault ∧ fault.kind = .invalidArgument ∧
        fault.text = "invalid base58 character") ∧
    (∀ (ns : List Nat) (n : Nat), ns.length ≤ n → (∀ b ∈ ns, b < 256) →
      Lossless 256 58 (encodedCapacity n) ns) ∧
    (∀ (ds : List Nat) (n : Nat), ds.length ≤ n → (∀ d ∈ ds, d < 58) →
      Lossless 58 256 (decodedCapacity n) ds) := by
  refine ⟨fun bs => ⟨overAlphabet_encode bs, decode?_encode bs⟩, fun t ht => ht.exists_decode?,
    fun text => exists_decode?_iff, fun text t => decode?_of_between, fun text h => ?_, fun ns n hn hns => ?_,
    fun ds n hn hds => ?_⟩
  · have hnone : decode? text = none := by
      cases hdecode : decode? text with
      | none => rfl
      | some bs => exact absurd (exists_decode?_iff.1 ⟨bs, hdecode⟩) h
    refine ⟨.key .fileText, ?_, rfl, rfl⟩
    rw [KeyFile.parse, hnone]
  · exact convert_lossless (by decide) hns
      ((Nat.pow_le_pow_right (by decide) hn).trans (pow_le_encodedCapacity n))
  · exact convert_lossless (by decide) hds
      ((Nat.pow_le_pow_right (by decide) hn).trans (pow_le_decodedCapacity n))

/-- Two zeros in front are two digits, blanks and a line end do not count, and a zero is no digit. -/
theorem bijective_within_capacity_on_sample :
    encode [0, 0, 1] = [0x31, 0x31, 0x32] ∧ decode? [0x31, 0x31, 0x32] = some [0, 0, 1] ∧
      decode? [0x20, 0x09, 0x31, 0x31, 0x32, 0x0D, 0x0A] = some [0, 0, 1] ∧
      (∃ fault, KeyFile.parse [0x31, 0x30] = .error fault ∧ fault.kind = .invalidArgument) ∧
      Lossless 256 58 (encodedCapacity 1) [1] ∧ Lossless 58 256 (decodedCapacity 1) [1] := by
  obtain ⟨hencoded, -, hform, hblanks, hrefused, hthere, hback⟩ := bijective_within_capacity
  have hencode : encode [0, 0, 1] = [0x31, 0x31, 0x32] := by decide
  have halphabet : OverAlphabet [0x31, 0x31, 0x32] := hencode ▸ (hencoded [0, 0, 1]).1
  have hdecode : decode? [0x31, 0x31, 0x32] = some [0, 0, 1] := hencode ▸ (hencoded [0, 0, 1]).2
  refine ⟨hencode, hdecode, ?_, ?_, hthere [1] 1 (by decide) (by decide), hback [1] 1 (by decide) (by decide)⟩
  · have hbetween : Between [0x31, 0x31, 0x32] [0x20, 0x09, 0x31, 0x31, 0x32, 0x0D, 0x0A] :=
      ⟨[0x20, 0x09], [0x0D, 0x0A], rfl, by simp, by simp⟩
    exact (hblanks _ _ halphabet hbetween).trans hdecode
  · have hnone : decode? [0x31, 0x30] = none := by decide
    obtain ⟨fault, hfault, hkind, -⟩ := hrefused [0x31, 0x30] fun hsome => by
      obtain ⟨bs, hbs⟩ := (hform _).2 hsome
      cases hnone.symm.trans hbs
    exact ⟨fault, hfault, hkind⟩

end Stratum.Base58
