import Mathlib.Data.List.TakeWhile
import Mathlib.Data.Nat.Digits.Lemmas
import Mathlib.Tactic.Ring
import Stratum.Text.Radix

/-!
# Changing the base of a number

A conversion goes over its buffer once for each digit of the number, multiplies it by one base
and writes it in the other. This module shows that the buffer is the number, as long as it is
long enough, and that nothing is lost on the way there:

* `Radix.ofDigits_mulAdd`: what one pass leaves in the buffer and what it carries out are
  together the product and the sum;
* **`Radix.convert_fits`**: if the greatest number of as many digits fits into the buffer, no pass
  carries anything out, and **`Radix.ofDigits_convert`**: the buffer then holds the number;
* **`Radix.convert_back`**: what is converted there and back is what it was, if it has no zero
  in front, since a number has one numeral in each base;
* `Radix.pow_le_pow_of_ratio`: a buffer is long enough if the ratio of its length to the number of
  digits is one that powers of the two bases witness;
* **`Radix.marked_eq`**: a conversion that goes over no more of the buffer than it has to, with a mark
  behind the digits in use, does the same.
-/

namespace Stratum.Radix

variable {source base m capacity : Nat} {digits buffer : List Nat}

/-! ### Copies in front -/

section

variable {α : Type} [BEq α] [LawfulBEq α]

/-- What is taken while it is one thing is copies of that. -/
theorem takeWhile_eq_replicate (z : α) (xs : List α) :
    xs.takeWhile (· == z) = List.replicate (xs.takeWhile (· == z)).length z := by
  refine List.eq_replicate_length.2 fun x hx => ?_
  have hsame : (x == z) = true := List.mem_takeWhile_imp (p := fun x => x == z) hx
  exact eq_of_beq hsame

/-- What is left does not begin with it. -/
theorem head?_dropWhile_ne (z : α) (xs : List α) : (xs.dropWhile (· == z)).head? ≠ some z := by
  intro hz
  have hfirst := List.head?_dropWhile_not (· == z) xs
  rw [hz] at hfirst
  simp at hfirst

end

/-! ### One pass -/

@[simp] theorem length_mulAdd (carry : Nat) (buffer : List Nat) :
    (mulAdd base m carry buffer).1.length = buffer.length := by
  induction buffer generalizing carry with
  | nil => rfl
  | cons d ds ih => exact congrArg Nat.succ (ih _)

theorem lt_of_mem_mulAdd (hbase : 0 < base) (carry : Nat) (buffer : List Nat) :
    ∀ d ∈ (mulAdd base m carry buffer).1, d < base := by
  induction buffer generalizing carry with
  | nil => exact fun d hd => absurd hd List.not_mem_nil
  | cons d ds ih =>
    intro d' hd'
    rcases List.mem_cons.1 hd' with rfl | hd'
    · exact Nat.mod_lt _ hbase
    · exact ih _ d' hd'

/-- **What one pass computes**: the product and the sum, with what is carried out on top. -/
theorem ofDigits_mulAdd (carry : Nat) (buffer : List Nat) :
    Nat.ofDigits base (mulAdd base m carry buffer).1 + base ^ buffer.length * (mulAdd base m carry buffer).2
      = m * Nat.ofDigits base buffer + carry := by
  induction buffer generalizing carry with
  | nil => simp [mulAdd]
  | cons d ds ih =>
    let t := m * d + carry
    let rest := mulAdd base m (t / base) ds
    have hrest : Nat.ofDigits base rest.1 + base ^ ds.length * rest.2 = m * Nat.ofDigits base ds + t / base := ih _
    calc Nat.ofDigits base (t % base :: rest.1) + base ^ (ds.length + 1) * rest.2
        = t % base + base * (Nat.ofDigits base rest.1 + base ^ ds.length * rest.2) := by
          rw [Nat.ofDigits_cons, pow_succ]
          ring
      _ = (t % base + base * (t / base)) + base * (m * Nat.ofDigits base ds) := by
          rw [hrest]
          ring
      _ = t + base * (m * Nat.ofDigits base ds) := by rw [Nat.mod_add_div]
      _ = m * Nat.ofDigits base (d :: ds) + carry := by
          rw [Nat.ofDigits_cons]
          ring

/-- If the result fits into the buffer, it is there, and nothing is carried out. -/
theorem mulAdd_of_lt {carry : Nat} (h : m * Nat.ofDigits base buffer + carry < base ^ buffer.length) :
    Nat.ofDigits base (mulAdd base m carry buffer).1 = m * Nat.ofDigits base buffer + carry ∧
      (mulAdd base m carry buffer).2 = 0 := by
  have hpass : Nat.ofDigits base (mulAdd base m carry buffer).1
      + base ^ buffer.length * (mulAdd base m carry buffer).2 = m * Nat.ofDigits base buffer + carry :=
    ofDigits_mulAdd carry buffer
  have hnone : (mulAdd base m carry buffer).2 = 0 := by
    by_contra hcarry
    have hle := Nat.le_mul_of_pos_right (base ^ buffer.length) (Nat.pos_of_ne_zero hcarry)
    omega
  rw [hnone, Nat.mul_zero, Nat.add_zero] at hpass
  exact ⟨hpass, hnone⟩

/-! ### Numbers and numerals -/

/-- The number with the given digits, most significant first. -/
def value (base : Nat) (digits : List Nat) : Nat := Nat.ofDigits base digits.reverse

theorem value_concat (digits : List Nat) (d : Nat) : value base (digits ++ [d]) = base * value base digits + d := by
  rw [value, List.reverse_concat, Nat.ofDigits_cons, value, Nat.add_comm]

theorem value_le_concat (hbase : 0 < base) (digits : List Nat) (d : Nat) :
    value base digits ≤ value base (digits ++ [d]) := by
  rw [value_concat]
  exact le_add_of_le_of_nonneg (Nat.le_mul_of_pos_left _ hbase) (Nat.zero_le d)

theorem value_lt (hbase : 1 < base) (h : ∀ d ∈ digits, d < base) : value base digits < base ^ digits.length := by
  have hlt := Nat.ofDigits_lt_base_pow_length hbase (l := digits.reverse) fun d hd => h d (List.mem_reverse.1 hd)
  rwa [List.length_reverse] at hlt

/-- Digits as one writes them: below the base, and no zero in front. -/
structure IsNumeral (base : Nat) (digits : List Nat) : Prop where
  /-- They are below the base. -/
  lt : ∀ d ∈ digits, d < base
  /-- The first is not zero. -/
  head?_ne : digits.head? ≠ some 0

/-- **A number has one numeral.** -/
theorem IsNumeral.digits_value (hbase : 1 < base) (h : IsNumeral base digits) :
    (Nat.digits base (value base digits)).reverse = digits := by
  have hlast : ∀ hne : digits.reverse ≠ [], digits.reverse.getLast hne ≠ 0 := by
    intro hne hzero
    rw [List.getLast_reverse] at hzero
    exact h.head?_ne (List.head?_eq_some_head _ ▸ congrArg some hzero)
  rw [value, Nat.digits_ofDigits base hbase _ (fun d hd => h.lt d (List.mem_reverse.1 hd)) hlast,
    List.reverse_reverse]

/-- The digits of a buffer: zeros behind what is significant. -/
theorem exists_eq_append_replicate (buffer : List Nat) :
    ∃ k, buffer = (significant buffer).reverse ++ List.replicate k 0 := by
  refine ⟨(buffer.reverse.takeWhile (· == 0)).length, ?_⟩
  rw [← List.reverse_replicate, ← takeWhile_eq_replicate, ← List.reverse_append, significant,
    List.takeWhile_append_dropWhile, List.reverse_reverse]

theorem isNumeral_significant (h : ∀ d ∈ buffer, d < base) : IsNumeral base (significant buffer) where
  lt d hd := h d (List.mem_reverse.1 ((List.dropWhile_sublist _).mem hd))
  head?_ne := head?_dropWhile_ne 0 buffer.reverse

theorem value_significant (buffer : List Nat) : value base (significant buffer) = Nat.ofDigits base buffer := by
  obtain ⟨k, hbuffer⟩ := exists_eq_append_replicate buffer
  conv_rhs => rw [hbuffer, Nat.ofDigits_append_replicate_zero]
  rfl

/-! ### Conversions -/

theorem convert_concat (digits : List Nat) (d : Nat) :
    convert source base capacity (digits ++ [d])
      = (mulAdd base source d (convert source base capacity digits)).1 := by
  simp [convert]

@[simp] theorem length_convert (digits : List Nat) : (convert source base capacity digits).length = capacity := by
  induction digits using List.reverseRecOn with
  | nil => exact List.length_replicate
  | append_singleton digits d ih => rw [convert_concat, length_mulAdd, ih]

theorem lt_of_mem_convert (hbase : 0 < base) (digits : List Nat) :
    ∀ d ∈ convert source base capacity digits, d < base := by
  induction digits using List.reverseRecOn with
  | nil =>
    intro d hd
    rw [List.eq_of_mem_replicate hd]
    exact hbase
  | append_singleton digits d ih =>
    rw [convert_concat]
    exact lt_of_mem_mulAdd hbase _ _

/-- **A buffer that is long enough holds the number.** -/
theorem ofDigits_convert (hsource : 0 < source) (h : value source digits < base ^ capacity) :
    Nat.ofDigits base (convert source base capacity digits) = value source digits := by
  induction digits using List.reverseRecOn with
  | nil => exact Nat.ofDigits_replicate_zero
  | append_singleton digits d ih =>
    have hbefore := ih (lt_of_le_of_lt (value_le_concat hsource digits d) h)
    rw [value_concat, ← hbefore] at h ⊢
    rw [convert_concat]
    exact (mulAdd_of_lt (by rwa [length_convert])).1

/-- No pass of a conversion carries anything out. -/
def Fits (source base capacity : Nat) (digits : List Nat) : Prop :=
  ∀ before d after, digits = before ++ d :: after →
    (mulAdd base source d (convert source base capacity before)).2 = 0

/-- **A conversion fits if every number of as many digits does.** -/
theorem convert_fits (hsource : 1 < source) (h : ∀ d ∈ digits, d < source)
    (hroom : source ^ digits.length ≤ base ^ capacity) : Fits source base capacity digits := by
  rintro before d after rfl
  -- The number that the pass makes has the digits up to here.
  have hlt : value source (before ++ [d]) < base ^ capacity := by
    have hsome : ∀ d' ∈ before ++ [d], d' < source := fun d' hd' => h d' (by
      rw [List.append_cons]
      exact List.mem_append_left after hd')
    have hlength : (before ++ [d]).length ≤ (before ++ d :: after).length := by simp
    calc value source (before ++ [d]) < source ^ (before ++ [d]).length := value_lt hsource hsome
      _ ≤ source ^ (before ++ d :: after).length := Nat.pow_le_pow_right (by omega) hlength
      _ ≤ base ^ capacity := hroom
  have hpos : 0 < source := Nat.zero_lt_of_lt hsource
  have hbefore : Nat.ofDigits base (convert source base capacity before) = value source before :=
    ofDigits_convert hpos (lt_of_le_of_lt (value_le_concat hpos before d) hlt)
  rw [value_concat, ← hbefore] at hlt
  exact (mulAdd_of_lt (by rwa [length_convert])).2

/-- What is significant of a conversion is the numeral of the number. -/
theorem significant_convert (hsource : 1 < source) (hbase : 1 < base)
    (h : value source digits < base ^ capacity) :
    significant (convert source base capacity digits) = (Nat.digits base (value source digits)).reverse := by
  have hnumeral : IsNumeral base (significant (convert source base capacity digits)) :=
    isNumeral_significant (lt_of_mem_convert (by omega) digits)
  rw [← hnumeral.digits_value hbase, value_significant, ofDigits_convert (by omega) h]

/-- **A numeral that is converted there and back is what it was.** -/
theorem convert_back {there back : Nat} (hsource : 1 < source) (hbase : 1 < base) (hd : IsNumeral source digits)
    (hthere : source ^ digits.length ≤ base ^ there)
    (hback : base ^ (significant (convert source base there digits)).length ≤ source ^ back) :
    significant (convert base source back (significant (convert source base there digits))) = digits := by
  have hlt : value source digits < base ^ there := lt_of_lt_of_le (value_lt hsource hd.lt) hthere
  have hnumeral : IsNumeral base (significant (convert source base there digits)) :=
    isNumeral_significant (lt_of_mem_convert (by omega) digits)
  have hvalue : value base (significant (convert source base there digits)) = value source digits := by
    rw [value_significant, ofDigits_convert (by omega) hlt]
  have hlt' := lt_of_lt_of_le (value_lt hbase hnumeral.lt) hback
  rw [significant_convert hbase hsource hlt', hvalue, hd.digits_value hsource]

/-! ### Buffers that are long enough -/

/-- If `q` digits of one base fit into `p` of another, `n` fit into `n * p / q + 1`. -/
theorem pow_le_pow_of_ratio {p q : Nat} (hq : 0 < q) (hbase : 0 < base) (h : source ^ q ≤ base ^ p) (n : Nat) :
    source ^ n ≤ base ^ (n * p / q + 1) := by
  have hexponent : n * p ≤ (n * p / q + 1) * q := by
    rw [Nat.add_mul, Nat.one_mul]
    exact (Nat.lt_div_mul_add hq).le
  refine (Nat.pow_le_pow_iff_left hq.ne').1 ?_
  calc (source ^ n) ^ q = (source ^ q) ^ n := pow_right_comm _ _ _
    _ ≤ (base ^ p) ^ n := Nat.pow_le_pow_left h n
    _ = base ^ (n * p) := by rw [← pow_mul, Nat.mul_comm]
    _ ≤ base ^ ((n * p / q + 1) * q) := Nat.pow_le_pow_right hbase hexponent
    _ = (base ^ (n * p / q + 1)) ^ q := pow_mul _ _ _

/-! ### Conversions with a mark -/

/-- A pass that ends when nothing is carried any more and the digits in use are behind it. It also says how many
digits it has gone over. -/
def sweep (base m : Nat) : (carry used : Nat) → (buffer : List Nat) → (List Nat × Nat) × Nat
  | carry, _, [] => (([], carry), 0)
  | carry, used, d :: ds =>
    if carry = 0 ∧ used = 0 then ((d :: ds, 0), 0)
    else
      let t := m * d + carry
      let rest := sweep base m (t / base) (used - 1) ds
      ((t % base :: rest.1.1, rest.1.2), rest.2 + 1)

/-- A conversion that keeps a mark: the buffer, and how many of its digits are in use. -/
def marked (source base capacity : Nat) (digits : List Nat) : List Nat × Nat :=
  digits.foldl (fun s d => let r := sweep base source d s.2 s.1; (r.1.1, r.2)) (List.replicate capacity 0, 0)

theorem mulAdd_zero (h : ∀ d ∈ buffer, d = 0) : mulAdd base m 0 buffer = (buffer, 0) := by
  induction buffer with
  | nil => rfl
  | cons d ds ih =>
    have hd : d = 0 := h d List.mem_cons_self
    have hds := ih fun d' hd' => h d' (List.mem_cons_of_mem _ hd')
    simp [mulAdd, hd, hds]

/-- **A pass that ends early does what the whole pass does**, if there are zeros behind the mark, and there are
zeros behind where it ends. -/
theorem sweep_eq {carry used : Nat} (h : ∀ d ∈ buffer.drop used, d = 0) :
    (sweep base m carry used buffer).1 = mulAdd base m carry buffer ∧
      ∀ d ∈ (mulAdd base m carry buffer).1.drop (sweep base m carry used buffer).2, d = 0 := by
  induction buffer generalizing carry used with
  | nil => exact ⟨rfl, fun d hd => absurd hd (by simp [mulAdd])⟩
  | cons d ds ih =>
    by_cases hend : carry = 0 ∧ used = 0
    · obtain ⟨rfl, rfl⟩ := hend
      rw [List.drop_zero] at h
      rw [sweep, if_pos ⟨rfl, rfl⟩, mulAdd_zero h]
      exact ⟨rfl, h⟩
    · have hbehind : ∀ d' ∈ ds.drop (used - 1), d' = 0 := by
        cases used with
        | zero => exact fun d' hd' => h d' (List.mem_cons_of_mem _ hd')
        | succ n => exact h
      obtain ⟨hrest, hzeros⟩ : (sweep base m ((m * d + carry) / base) (used - 1) ds).1
          = mulAdd base m ((m * d + carry) / base) ds ∧ _ := ih hbehind
      rw [sweep, if_neg hend]
      refine ⟨?_, hzeros⟩
      simp only [mulAdd, hrest]

theorem marked_concat (digits : List Nat) (d : Nat) :
    marked source base capacity (digits ++ [d])
      = ((sweep base source d (marked source base capacity digits).2 (marked source base capacity digits).1).1.1,
          (sweep base source d (marked source base capacity digits).2 (marked source base capacity digits).1).2) := by
  simp [marked]

/-- **A conversion with a mark does what one without does**, and there are zeros behind the mark. -/
theorem marked_eq (source base capacity : Nat) (digits : List Nat) :
    (marked source base capacity digits).1 = convert source base capacity digits ∧
      ∀ d ∈ (convert source base capacity digits).drop (marked source base capacity digits).2, d = 0 := by
  induction digits using List.reverseRecOn with
  | nil => exact ⟨rfl, fun d hd => List.eq_of_mem_replicate hd⟩
  | append_singleton digits d ih =>
    obtain ⟨hbuffer, hzeros⟩ := ih
    obtain ⟨hpass, hbehind⟩ : (sweep base source d (marked source base capacity digits).2
        (convert source base capacity digits)).1 = mulAdd base source d (convert source base capacity digits) ∧ _ :=
      sweep_eq hzeros
    rw [marked_concat, convert_concat, hbuffer, hpass]
    exact ⟨rfl, hbehind⟩

/-- If no pass carries anything out, none that ends early does. -/
theorem Fits.sweep_carry (h : Fits source base capacity digits) {before after : List Nat} {d : Nat}
    (hdigits : digits = before ++ d :: after) :
    (sweep base source d (marked source base capacity before).2 (marked source base capacity before).1).1.2 = 0 := by
  obtain ⟨hbuffer, hzeros⟩ := marked_eq source base capacity before
  rw [hbuffer, (sweep_eq hzeros).1]
  exact h before d after hdigits

/-- What is significant is in front of the mark. -/
theorem significant_take {n : Nat} (h : ∀ d ∈ buffer.drop n, d = 0) :
    significant (buffer.take n) = significant buffer := by
  conv_rhs => rw [← List.take_append_drop n buffer, significant, List.reverse_append]
  rw [List.dropWhile_append_of_pos fun d hd => beq_iff_eq.2 (h d (List.mem_reverse.1 hd)), significant]

/-- A conversion that loses nothing, whether it goes over its whole buffer each time or keeps a mark. -/
structure Lossless (source base capacity : Nat) (digits : List Nat) : Prop where
  /-- No pass carries anything out. -/
  fits : Fits source base capacity digits
  /-- No pass that ends early does. -/
  sweep_carry : ∀ before d after, digits = before ++ d :: after →
    (sweep base source d (marked source base capacity before).2 (marked source base capacity before).1).1.2 = 0
  /-- The buffer is the same in the end. -/
  marked_buffer : (marked source base capacity digits).1 = convert source base capacity digits
  /-- All that is significant in it is in front of the mark. -/
  marked_significant : significant ((marked source base capacity digits).1.take (marked source base capacity digits).2)
    = significant (convert source base capacity digits)
  /-- It holds the number. -/
  ofDigits_buffer : Nat.ofDigits base (convert source base capacity digits) = value source digits

/-- **A conversion into a buffer that is long enough loses nothing.** -/
theorem convert_lossless (hsource : 1 < source) (h : ∀ d ∈ digits, d < source)
    (hroom : source ^ digits.length ≤ base ^ capacity) : Lossless source base capacity digits where
  fits := convert_fits hsource h hroom
  sweep_carry _ _ _ hdigits := (convert_fits hsource h hroom).sweep_carry hdigits
  marked_buffer := (marked_eq source base capacity digits).1
  marked_significant := by
    obtain ⟨hbuffer, hzeros⟩ := marked_eq source base capacity digits
    rw [hbuffer, significant_take hzeros]
  ofDigits_buffer := ofDigits_convert (by omega) (lt_of_lt_of_le (value_lt hsource h) hroom)

end Stratum.Radix
