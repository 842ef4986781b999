import Stratum.Proofs.Steps
import Stratum.Wire.Decode
import Stratum.Wire.Encode

/-!
# The codec is a bijection

Every format of the wire has one byte string for each of its values, and reading
gives a value exactly on that string (`WireFormat.decode_reads`); the same holds of
a list of fields (`Fields.decode_reads`). One equivalence says both directions at
once, with any bytes behind the value and at any place:

    d c = .ok v c'  ↔  c passes the bytes of v and comes to c'

It is a property of a decoder (`Decoder.Reads`) that sequencing keeps, so that the
proof for a format follows the format. What a decoder checks on its way (the width
of a prefix, a bound, truth values, UTF-8) is in the value it gives.

Writing never fails (`WireFormat.encode_eq`), since the types of the values carry
their bounds, and what it writes has at least one byte and at most
`WireFormat.maxLength`. So a decoder inverts its writer: **`decode_inverts_encode`**.
-/

namespace Stratum

/-! ### Passing bytes -/

/-- From `c` on the bytes are `bs`, and `c'` is the place behind them. -/
structure Cursor.Passes (c : Cursor) (bs : Bytes) (c' : Cursor) : Prop where
  /-- The bytes lie between the two places. -/
  rest_eq : c.rest = bs ++ c'.rest
  /-- The second place is further on by their number. -/
  position_eq : c'.position = c.position + bs.length

namespace Cursor

theorem passes_nil_iff {c c' : Cursor} : c.Passes [] c' ↔ c' = c := by
  cases c; cases c'
  constructor
  · rintro ⟨hr, hp⟩
    simp_all
  · rintro h
    cases h
    exact ⟨rfl, rfl⟩

theorem passes_append_iff {c c'' : Cursor} {a b : Bytes} :
    c.Passes (a ++ b) c'' ↔ ∃ c', c.Passes a c' ∧ c'.Passes b c'' := by
  constructor
  · rintro ⟨hr, hp⟩
    refine ⟨⟨c.position + a.length, b ++ c''.rest⟩, ⟨by rw [hr, List.append_assoc], rfl⟩, rfl, ?_⟩
    rw [hp, List.length_append, Nat.add_assoc]
  · rintro ⟨c', ⟨hr, hp⟩, hr', hp'⟩
    exact ⟨by rw [hr, hr', List.append_assoc], by rw [hp', hp, List.length_append, Nat.add_assoc]⟩

/-- A cursor passes the next `n` bytes if there are so many. -/
theorem passes_advance {c : Cursor} {n : Nat} (h : n ≤ c.rest.length) :
    c.Passes (c.rest.take n) (c.advance n) where
  rest_eq := (List.take_append_drop n c.rest).symm
  position_eq := by rw [advance, List.length_take, Nat.min_eq_left h]

theorem Passes.length_le {c c' : Cursor} {bs : Bytes} (h : c.Passes bs c') :
    bs.length ≤ c.rest.length := by
  rw [h.rest_eq, List.length_append]
  exact Nat.le_add_right _ _

theorem Passes.take_eq {c c' : Cursor} {bs : Bytes} (h : c.Passes bs c') :
    c.rest.take bs.length = bs := by
  rw [h.rest_eq, List.take_left]

theorem Passes.eq_advance {c c' : Cursor} {bs : Bytes} (h : c.Passes bs c') :
    c' = c.advance bs.length := by
  cases c' with
  | mk position rest =>
    have hr : c.rest = bs ++ rest := h.rest_eq
    have hp : position = c.position + bs.length := h.position_eq
    rw [advance, hr, List.drop_left, hp]

end Cursor

/-! ### Decoders that read what is written -/

namespace Decoder

variable {α β : Type}

/-- The decoder gives the values that obey `P`, each on the bytes that `w` writes for it and on no
others. -/
def Reads (d : Decoder α) (P : α → Prop) (w : α → Bytes) : Prop :=
  ∀ c v c', d c = .ok v c' ↔ P v ∧ c.Passes (w v) c'

theorem Reads.congr {d : Decoder α} {P Q : α → Prop} {w : α → Bytes} (h : d.Reads P w)
    (hPQ : ∀ v, P v ↔ Q v) : d.Reads Q w :=
  fun c v c' => by rw [h c v c', hPQ]

theorem ofExcept_eq_ok_iff {x : Except CodecFault α} {v : α} {c c' : Cursor} :
    ofExcept x c = .ok v c' ↔ x = .ok v ∧ c' = c := by
  cases x with
  | ok a => simp [ofExcept, eq_comm]
  | error e => simp [ofExcept]

/-- A checked constructor behind a decoder: `u` comes from `g' u`. -/
theorem Reads.check {d : Decoder α} {P : α → Prop} {w : α → Bytes} (h : d.Reads P w)
    {g : α → Except CodecFault β} {g' : β → α} (hg : ∀ v u, P v → (g v = .ok u ↔ v = g' u)) :
    (d >>= fun v => ofExcept (g v)).Reads (fun u => P (g' u)) (fun u => w (g' u)) := by
  intro c u c'
  rw [Step.bind_eq_ok_iff]
  constructor
  · rintro ⟨v, c₁, hd, hu⟩
    obtain ⟨hv, rfl⟩ := ofExcept_eq_ok_iff.1 hu
    obtain ⟨hP, hpass⟩ := (h c v c').1 hd
    have hvu : v = g' u := (hg v u hP).1 hv
    subst hvu
    exact ⟨hP, hpass⟩
  · rintro ⟨hP, hpass⟩
    exact ⟨g' u, c', (h c (g' u) c').2 ⟨hP, hpass⟩, ofExcept_eq_ok_iff.2 ⟨(hg (g' u) u hP).2 rfl, rfl⟩⟩

/-- A conversion behind a decoder. -/
theorem Reads.map {d : Decoder α} {P : α → Prop} {w : α → Bytes} (h : d.Reads P w)
    {g : α → β} {g' : β → α} (hg : ∀ v u, P v → (g v = u ↔ v = g' u)) :
    (d >>= fun v => pure (g v)).Reads (fun u => P (g' u)) (fun u => w (g' u)) :=
  h.check (g := fun v => .ok (g v)) fun v u hv => by rw [Except.ok.injEq, hg v u hv]

/-- One decoder after another. -/
theorem Reads.pair {d : Decoder α} {d' : Decoder β} {w : α → Bytes} {w' : β → Bytes}
    (h : d.Reads (fun _ => True) w) (h' : d'.Reads (fun _ => True) w') :
    (d >>= fun a => d' >>= fun b => pure (a, b)).Reads (fun _ => True) (fun p => w p.1 ++ w' p.2) := by
  rintro c ⟨a, b⟩ c'
  rw [true_and, Cursor.passes_append_iff, Step.bind_eq_ok_iff]
  constructor
  · rintro ⟨a', c₁, ha, hrest⟩
    obtain ⟨b', c₂, hb, hpair⟩ := Step.bind_eq_ok_iff.1 hrest
    cases hpair
    exact ⟨c₁, ((h c a c₁).1 ha).2, ((h' c₁ b c').1 hb).2⟩
  · rintro ⟨c₁, ha, hb⟩
    refine ⟨a, c₁, (h c a c₁).2 ⟨trivial, ha⟩, ?_⟩
    rw [Step.bind_of_ok ((h' c₁ b c').2 ⟨trivial, hb⟩)]
    rfl

theorem take_reads (n : Nat) : (take n).Reads (fun bs => bs.length = n) (fun bs => bs) := by
  intro c bs c'
  constructor
  · intro h
    unfold take at h
    split at h
    · rename_i hn
      have hle : n ≤ c.rest.length := Cursor.has_iff.1 hn
      cases h
      exact ⟨List.length_take_of_le hle, Cursor.passes_advance hle⟩
    · cases h
  · rintro ⟨rfl, hpass⟩
    rw [take, if_pos (Cursor.has_iff.2 hpass.length_le), hpass.take_eq, ← hpass.eq_advance]

theorem utf8_reads (n : Nat) :
    (utf8 n).Reads (fun bs => bs.length = n ∧ Utf8.isValid bs = true) (fun bs => bs) := by
  intro c bs c'
  constructor
  · intro h
    unfold utf8 at h
    split at h
    · rename_i hvalid
      obtain ⟨hlen, hpass⟩ := (take_reads n c bs c').1 h
      rw [← hlen, hpass.take_eq] at hvalid
      exact ⟨⟨hlen, hvalid⟩, hpass⟩
    · cases h
  · rintro ⟨⟨rfl, hvalid⟩, hpass⟩
    rw [utf8, hpass.take_eq, if_pos hvalid]
    exact (take_reads _ c bs c').2 ⟨rfl, hpass⟩

theorem number_reads (n : Nat) : (number n).Reads (· < Bytes.capacity n) (Bytes.ofNatLE n) := by
  intro c v c'
  unfold number
  rw [Step.bind_eq_ok_iff]
  constructor
  · rintro ⟨bs, c₁, hd, hv⟩
    obtain ⟨rfl, hpass⟩ := (take_reads n c bs c₁).1 hd
    cases hv
    rw [Bytes.ofNatLE_toNatLE]
    exact ⟨Bytes.toNatLE_lt bs, hpass⟩
  · rintro ⟨hv, hpass⟩
    refine ⟨Bytes.ofNatLE n v, c', (take_reads n c _ c').2 ⟨Bytes.length_ofNatLE n v, hpass⟩, ?_⟩
    rw [Step.pure_apply, Bytes.toNatLE_ofNatLE hv]

theorem bool_reads : bool.Reads (fun _ => True) (fun b => [if b then 1 else 0]) := by
  intro c v c'
  rw [true_and]
  cases c with
  | mk position rest =>
    cases rest with
    | nil =>
      refine ⟨fun h => (nomatch h), fun h => ?_⟩
      have hr : [] = _ :: c'.rest := h.rest_eq
      cases hr
    | cons b rest =>
      have hadvance : Cursor.advance ⟨position, b :: rest⟩ 1 = ⟨position + 1, rest⟩ := rfl
      simp only [bool, hadvance]
      constructor
      · intro h
        split at h
        · rename_i hb
          cases h
          refine ⟨?_, rfl⟩
          -- A byte that is at most 1 is 0 or 1.
          have hcase : b = 0 ∨ b = 1 := by
            rw [← UInt8.toNat_inj, ← UInt8.toNat_inj]
            have hb' : b.toNat ≤ 1 := hb
            show b.toNat = 0 ∨ b.toNat = 1
            omega
          rcases hcase with rfl | rfl <;> rfl
        · cases h
      · rintro ⟨hr, hp⟩
        cases c' with
        | mk position' rest' =>
          simp only [List.cons_append, List.nil_append, List.cons.injEq, List.length_cons,
            List.length_nil] at hr hp
          obtain ⟨rfl, rfl⟩ := hr
          cases v <;> simp [hp]

/-- A length prefix is read as a number within its bound and within the bytes behind it. -/
theorem length_eq_ok_iff {b : LengthBound} {c c' : Cursor} {n : Nat} :
    length b.width b.max c = .ok n c' ↔
      n ≤ b.max ∧ c.Passes (Bytes.ofNatLE b.width n) c' ∧ n ≤ c'.rest.length := by
  unfold length
  rw [if_pos b.width_mem]
  constructor
  · intro h
    cases hn : number b.width c with
    | error e c₁ => simp [hn] at h
    | ok m c₁ =>
      obtain ⟨_, hpass⟩ := (number_reads b.width c m c₁).1 hn
      simp only [hn] at h
      split at h
      · cases h
      · rename_i hmax
        split at h
        · rename_i hhas
          cases h
          exact ⟨Nat.le_of_not_lt hmax, hpass, Cursor.has_iff.1 hhas⟩
        · cases h
  · rintro ⟨hmax, hpass, hlen⟩
    have hcap : n < Bytes.capacity b.width := Nat.lt_of_le_of_lt hmax b.max_lt
    rw [(number_reads b.width c n c').2 ⟨hcap, hpass⟩]
    simp only
    rw [if_neg (Nat.not_lt.2 hmax), if_pos (Cursor.has_iff.2 hlen)]

/-- What follows a length prefix, if its size is what the prefix says: no more than its number of bytes
and within the bound. -/
theorem Reads.behindLength {b : LengthBound} {k : Nat → Decoder α} (size : α → Nat) {w : α → Bytes}
    (hk : ∀ n, (k n).Reads (fun v => size v = n) w) (hlen : ∀ v, size v ≤ (w v).length)
    (hmax : ∀ v, size v ≤ b.max) :
    (length b.width b.max >>= k).Reads (fun _ => True)
      (fun v => Bytes.ofNatLE b.width (size v) ++ w v) := by
  intro c v c'
  rw [Step.bind_eq_ok_iff, true_and, Cursor.passes_append_iff]
  constructor
  · rintro ⟨n, c₁, hn, hv⟩
    obtain ⟨-, hpass, -⟩ := length_eq_ok_iff.1 hn
    obtain ⟨rfl, hpass'⟩ := (hk n c₁ v c').1 hv
    exact ⟨c₁, hpass, hpass'⟩
  · rintro ⟨c₁, hpass, hpass'⟩
    have hfits : size v ≤ c₁.rest.length := Nat.le_trans (hlen v) hpass'.length_le
    exact ⟨size v, c₁, length_eq_ok_iff.2 ⟨hmax v, hpass, hfits⟩, (hk _ c₁ v c').2 ⟨rfl, hpass'⟩⟩

/-- The items that are read are added behind those already read. -/
theorem items_eq_ok_iff {item : Decoder α} {w : α → Bytes} (h : item.Reads (fun _ => True) w)
    (n : Nat) {before vs : List α} {c c' : Cursor} :
    items item n before c = .ok vs c' ↔
      ∃ new, vs = before.reverse ++ new ∧ new.length = n ∧ c.Passes (new.flatMap w) c' := by
  induction n generalizing before c with
  | zero =>
    constructor
    · intro hv
      cases hv
      exact ⟨[], by simp, rfl, Cursor.passes_nil_iff.2 rfl⟩
    · rintro ⟨new, rfl, hnew, hpass⟩
      obtain rfl := List.length_eq_zero_iff.1 hnew
      obtain rfl := Cursor.passes_nil_iff.1 hpass
      rw [List.append_nil]
      rfl
  | succ n ih =>
    unfold items
    rw [Step.bind_eq_ok_iff]
    constructor
    · rintro ⟨a, c₁, ha, hv⟩
      obtain ⟨-, hpass⟩ := (h c a c₁).1 ha
      obtain ⟨new, rfl, rfl, hpass'⟩ := ih.1 hv
      exact ⟨a :: new, by simp, rfl, Cursor.passes_append_iff.2 ⟨c₁, hpass, hpass'⟩⟩
    · rintro ⟨new, rfl, hnew, hpass⟩
      cases new with
      | nil => cases hnew
      | cons a new =>
        obtain ⟨c₁, ha, hpass'⟩ := Cursor.passes_append_iff.1 hpass
        refine ⟨a, c₁, (h c a c₁).2 ⟨trivial, ha⟩, ih.2 ⟨new, by simp, ?_, hpass'⟩⟩
        simpa using hnew

theorem items_reads {item : Decoder α} {w : α → Bytes} (h : item.Reads (fun _ => True) w) (n : Nat) :
    (items item n []).Reads (fun vs => vs.length = n) (fun vs => vs.flatMap w) := by
  intro c vs c'
  rw [items_eq_ok_iff h]
  constructor
  · rintro ⟨new, rfl, hn, hpass⟩
    exact ⟨hn, hpass⟩
  · rintro ⟨hn, hpass⟩
    exact ⟨vs, rfl, hn, hpass⟩

end Decoder

/-! ### What a format writes -/

/-- The `n` bytes of a number below 256 are the byte itself. -/
theorem Bytes.ofNatLE_one (b : UInt8) : Bytes.ofNatLE 1 b.toNat = [b] := by
  simp [Bytes.ofNatLE]

theorem FixedBytes.toBytes_padded {n : Nat} {bs : Bytes} (h : bs.length = n) :
    (FixedBytes.padded n bs).toBytes = bs := by
  subst h
  simp [FixedBytes.padded]

/-- The first bytes of a string that starts with `n` given ones. -/
theorem FixedBytes.padded_append {n : Nat} (a : FixedBytes n) (rest : Bytes) :
    FixedBytes.padded n (a.toBytes ++ rest) = a := by
  have hle : n - (a.toBytes ++ rest).length = 0 := by
    rw [List.length_append, a.length_eq]
    omega
  refine FixedBytes.ext ?_
  show (a.toBytes ++ rest).take n ++ List.replicate (n - (a.toBytes ++ rest).length) 0 = a.toBytes
  rw [List.take_left' a.length_eq, hle, List.replicate_zero, List.append_nil]

theorem FixedBytes.padded_eq_iff {n : Nat} {bs : Bytes} {a : FixedBytes n} (h : bs.length = n) :
    FixedBytes.padded n bs = a ↔ bs = a.toBytes := by
  constructor
  · rintro rfl
    exact (toBytes_padded h).symm
  · intro ha
    exact FixedBytes.ext ((toBytes_padded h).trans ha)

/-- The prefix of a length within its bound. -/
theorem encodeLength_eq (b : LengthBound) {n : Nat} (h : n ≤ b.max) :
    encodeLength n b.width = .ok (Bytes.ofNatLE b.width n) := by
  have hcap : n < Bytes.capacity b.width := Nat.lt_of_le_of_lt h b.max_lt
  obtain ⟨hlo, hhi⟩ := b.width_mem
  generalize b.width = width at hcap hlo hhi
  -- A width is 1, 2 or 3, and each has its own branch.
  obtain rfl | rfl | rfl : width = 1 ∨ width = 2 ∨ width = 3 := by omega
  · have hn : n ≤ 0xFF := Nat.le_of_lt_succ hcap
    rw [encodeLength, if_pos hn]
  · have hn : n ≤ 0xFFFF := Nat.le_of_lt_succ hcap
    rw [encodeLength, if_pos hn]
  · have hn : n ≤ 0xFFFFFF := Nat.le_of_lt_succ hcap
    rw [encodeLength, encodeU24, if_pos hn]

theorem mapM_eq_ok {ε α : Type} {g : α → Except ε Bytes} {w : α → Bytes}
    (h : ∀ a, g a = .ok (w a)) (items : List α) : items.mapM g = .ok (items.map w) := by
  induction items with
  | nil => rfl
  | cons a items ih =>
    rw [List.mapM_cons, Attempt.bind_of_ok (h a), Attempt.bind_of_ok ih]
    rfl

namespace WireFormat

/-- The bytes of a value. -/
def written : (f : WireFormat) → f.Value → Bytes
  | .u8, (v : UInt8) => Bytes.ofNatLE 1 v.toNat
  | .u16, (v : UInt16) => Bytes.ofNatLE 2 v.toNat
  | .u24, (v : U24) => Bytes.ofNatLE 3 v.val.toNat
  | .u32, (v : UInt32) => Bytes.ofNatLE 4 v.toNat
  | .u64, (v : UInt64) => Bytes.ofNatLE 8 v.toNat
  | .f32, (v : Binary32) => Bytes.ofNatLE 4 v.bits.toNat
  | .bool, (v : Bool) => [if v then 1 else 0]
  | .u256, (v : FixedBytes 32) => v.toBytes
  | .signature, (v : FixedBytes 64) => v.toBytes
  | .bytes b, (v : ByteString b) => Bytes.ofNatLE b.width v.toBytes.length ++ v.toBytes
  | .text b, (v : Text b) => Bytes.ofNatLE b.width v.toBytes.length ++ v.toBytes
  | .sequence item b, (v : Sequence item.Value b) =>
    Bytes.ofNatLE b.width v.toList.length ++ v.toList.flatMap item.written

/-- Writing a value never fails: its type keeps its bounds. -/
theorem encode_eq (f : WireFormat) (v : f.Value) : f.encode v = .ok (f.written v) := by
  induction f with
  | u8 => exact congrArg Except.ok (Bytes.ofNatLE_one v).symm
  | u24 =>
    have hle : UInt32.toNat v.val ≤ 0xFFFFFF := v.le
    exact if_pos hle
  | bytes b => exact Attempt.bind_of_ok (encodeLength_eq b v.length_le)
  | text b => exact Attempt.bind_of_ok (encodeLength_eq b v.length_le)
  | sequence item b ih =>
    show (encodeLength _ _ >>= fun count => List.mapM item.encode v.toList >>= fun items =>
      pure (count ++ items.flatten)) = _
    rw [Attempt.bind_of_ok (encodeLength_eq b v.length_le), Attempt.bind_of_ok (mapM_eq_ok ih _),
      ← List.flatMap_def]
    rfl
  | u16 | u32 | u64 | f32 | bool | u256 | signature => rfl

/-- The greatest number of bytes of a value. -/
def maxLength : WireFormat → Nat
  | .u8 | .bool => 1
  | .u16 => 2
  | .u24 => 3
  | .u32 | .f32 => 4
  | .u64 => 8
  | .u256 => 32
  | .signature => 64
  | .bytes b | .text b => b.width + b.max
  | .sequence item b => b.width + b.max * item.maxLength

theorem length_flatMap_le {α : Type} {w : α → Bytes} {k : Nat} (h : ∀ a, (w a).length ≤ k)
    (items : List α) : (items.flatMap w).length ≤ items.length * k := by
  induction items with
  | nil => simp
  | cons a items ih =>
    rw [List.flatMap_cons, List.length_append, List.length_cons, Nat.succ_mul, Nat.add_comm]
    exact Nat.add_le_add ih (h a)

theorem length_le_flatMap {α : Type} {w : α → Bytes} (h : ∀ a, 1 ≤ (w a).length) (items : List α) :
    items.length ≤ (items.flatMap w).length := by
  induction items with
  | nil => simp
  | cons a items ih =>
    rw [List.flatMap_cons, List.length_append, List.length_cons, Nat.add_comm]
    exact Nat.add_le_add (h a) ih

/-- Every value has a byte. -/
theorem one_le_length_written (f : WireFormat) (v : f.Value) : 1 ≤ (f.written v).length := by
  cases f with
  | u256 => exact Nat.le_trans (by decide) (Nat.le_of_eq (FixedBytes.length_eq v).symm)
  | signature => exact Nat.le_trans (by decide) (Nat.le_of_eq (FixedBytes.length_eq v).symm)
  | bytes b | text b | sequence item b =>
    show 1 ≤ (Bytes.ofNatLE b.width _ ++ _).length
    have hw := b.width_mem.1
    rw [List.length_append, Bytes.length_ofNatLE]
    omega
  | u8 | u16 | u24 | u32 | u64 | f32 =>
    exact Nat.le_trans (by decide) (Nat.le_of_eq (Bytes.length_ofNatLE _ _).symm)
  | bool => exact Nat.le_refl 1

theorem length_written_le (f : WireFormat) (v : f.Value) : (f.written v).length ≤ f.maxLength := by
  induction f with
  | u256 | signature => exact Nat.le_of_eq (FixedBytes.length_eq v)
  | bytes b | text b =>
    show (Bytes.ofNatLE b.width _ ++ _).length ≤ b.width + b.max
    rw [List.length_append, Bytes.length_ofNatLE]
    exact Nat.add_le_add_left v.length_le _
  | sequence item b ih =>
    show (Bytes.ofNatLE b.width _ ++ v.toList.flatMap item.written).length ≤ b.width + b.max * item.maxLength
    rw [List.length_append, Bytes.length_ofNatLE]
    have hitems := length_flatMap_le ih v.toList
    have hcount := Nat.mul_le_mul_right item.maxLength v.length_le
    exact Nat.add_le_add_left (Nat.le_trans hitems hcount) _
  | u8 | u16 | u24 | u32 | u64 | f32 => exact Nat.le_of_eq (Bytes.length_ofNatLE _ _)
  | bool => exact Nat.le_refl 1

/-! ### Reading a format -/

/-- A number of a type that is a range of numbers. -/
theorem reads_ofNat {α : Type} {n : Nat} {g : Nat → α} {g' : α → Nat}
    (hg : ∀ u, g (g' u) = u) (hg' : ∀ v, v < Bytes.capacity n → g' (g v) = v)
    (hlt : ∀ u, g' u < Bytes.capacity n) :
    (Decoder.number n >>= fun v => pure (g v)).Reads (fun _ => True)
      (fun u => Bytes.ofNatLE n (g' u)) := by
  refine ((Decoder.number_reads n).map fun v u hv => ?_).congr fun u => ⟨fun _ => trivial, fun _ => hlt u⟩
  constructor
  · rintro rfl
    exact (hg' v hv).symm
  · rintro rfl
    exact hg u

theorem u24_reads : (decode .u24).Reads (fun _ => True) (written .u24) := by
  have h : (Decoder.number 3 >>= fun v => Decoder.ofExcept (U24.ofUInt32 (UInt32.ofNat v))).Reads
      (fun u => u.val.toNat < Bytes.capacity 3) (fun u => Bytes.ofNatLE 3 u.val.toNat) := by
    refine (Decoder.number_reads 3).check fun v u hv => ?_
    have hnat : (UInt32.ofNat v).toNat = v :=
      UInt32.toNat_ofNat_of_lt (Nat.lt_trans hv (by decide))
    have hle : UInt32.ofNat v ≤ 0xFFFFFF := by
      show (UInt32.ofNat v).toNat ≤ 16777215
      rw [hnat]
      exact Nat.le_of_lt_succ hv
    rw [U24.ofUInt32, dif_pos hle, Except.ok.injEq]
    constructor
    · rintro rfl
      exact hnat.symm
    · rintro rfl
      cases u
      simp
  exact h.congr fun u => ⟨fun _ => trivial, fun _ => Nat.lt_succ_of_le u.le⟩

theorem fixed_reads (n : Nat) :
    (Decoder.take n >>= fun bs => pure (FixedBytes.padded n bs)).Reads (fun _ => True)
      FixedBytes.toBytes :=
  ((Decoder.take_reads n).map fun _ _ h => FixedBytes.padded_eq_iff h).congr
    fun u => ⟨fun _ => trivial, fun _ => u.length_eq⟩

theorem bytes_reads (b : LengthBound) : (decode (.bytes b)).Reads (fun _ => True) (written (.bytes b)) := by
  refine Decoder.Reads.behindLength (fun v : ByteString b => v.toBytes.length) (fun n => ?_)
    (fun v => Nat.le_refl _) fun v => v.length_le
  refine (Decoder.take_reads n).check fun bs u _ => ?_
  unfold ByteString.ofBytes
  constructor
  · intro h
    split at h
    · cases h
      rfl
    · cases h
  · rintro rfl
    rw [dif_pos u.length_le]

theorem text_reads (b : LengthBound) : (decode (.text b)).Reads (fun _ => True) (written (.text b)) := by
  refine Decoder.Reads.behindLength (fun v : Text b => v.toBytes.length) (fun n => ?_)
    (fun v => Nat.le_refl _) fun v => v.length_le
  refine ((Decoder.utf8_reads n).check fun bs u _ => ?_).congr fun u => and_iff_left u.valid
  unfold Text.ofBytes
  constructor
  · intro h
    split at h
    · split at h
      · cases h
        rfl
      · cases h
    · cases h
  · rintro rfl
    rw [dif_pos u.length_le, dif_pos u.valid]

theorem sequence_reads (item : WireFormat) (b : LengthBound)
    (h : item.decode.Reads (fun _ => True) item.written) :
    (decode (.sequence item b)).Reads (fun _ => True) (written (.sequence item b)) := by
  refine Decoder.Reads.behindLength (fun v : Sequence item.Value b => v.toList.length)
    (fun n => ?_) (fun v => length_le_flatMap item.one_le_length_written v.toList) fun v => v.length_le
  refine (Decoder.items_reads h n).check fun vs u _ => ?_
  unfold Sequence.ofList
  constructor
  · intro h
    split at h
    · cases h
      rfl
    · cases h
  · rintro rfl
    rw [dif_pos u.length_le]

/-- **Reading a format gives a value exactly on the bytes that write it.** -/
theorem decode_reads (f : WireFormat) : f.decode.Reads (fun _ => True) f.written := by
  induction f with
  | u8 =>
    exact reads_ofNat (fun _ => UInt8.ofNat_toNat) (fun v hv => UInt8.toNat_ofNat_of_lt hv)
      fun u => u.toNat_lt
  | u16 =>
    exact reads_ofNat (fun _ => UInt16.ofNat_toNat) (fun v hv => UInt16.toNat_ofNat_of_lt hv)
      fun u => u.toNat_lt
  | u24 => exact u24_reads
  | u32 =>
    exact reads_ofNat (fun _ => UInt32.ofNat_toNat) (fun v hv => UInt32.toNat_ofNat_of_lt hv)
      fun u => u.toNat_lt
  | u64 =>
    exact reads_ofNat (fun _ => UInt64.ofNat_toNat) (fun v hv => UInt64.toNat_ofNat_of_lt hv)
      fun u => u.toNat_lt
  | f32 =>
    exact reads_ofNat (g := fun v => (⟨UInt32.ofNat v⟩ : Binary32)) (fun _ => by rw [UInt32.ofNat_toNat])
      (fun v hv => UInt32.toNat_ofNat_of_lt hv) fun u => u.bits.toNat_lt
  | bool => exact Decoder.bool_reads
  | u256 => exact fixed_reads 32
  | signature => exact fixed_reads 64
  | bytes b => exact bytes_reads b
  | text b => exact text_reads b
  | sequence item b ih => exact sequence_reads item b ih

end WireFormat

/-! ### Lists of fields -/

namespace Fields

/-- The bytes of a list of fields. -/
def written : (fs : List WireFormat) → Fields fs → Bytes
  | [], _ => []
  | f :: fs, (v, vs) => f.written v ++ written fs vs

theorem encode_eq (fs : List WireFormat) (vs : Fields fs) : Fields.encode fs vs = .ok (written fs vs) := by
  induction fs with
  | nil => rfl
  | cons f fs ih =>
    obtain ⟨v, vs⟩ := vs
    show (f.encode v >>= fun a => Fields.encode fs vs >>= fun b => pure (a ++ b)) = _
    rw [Attempt.bind_of_ok (f.encode_eq v), Attempt.bind_of_ok (ih vs)]
    rfl

/-- The greatest number of bytes of a list of fields. -/
def maxLength : List WireFormat → Nat
  | [] => 0
  | f :: fs => f.maxLength + maxLength fs

theorem length_written_le (fs : List WireFormat) (vs : Fields fs) :
    (written fs vs).length ≤ maxLength fs := by
  induction fs with
  | nil => exact Nat.le_refl 0
  | cons f fs ih =>
    obtain ⟨v, vs⟩ := vs
    rw [written, List.length_append, maxLength]
    exact Nat.add_le_add (f.length_written_le v) (ih vs)

/-- **Reading a list of fields gives values exactly on the bytes that write them.** -/
theorem decode_reads (fs : List WireFormat) :
    (Fields.decode fs).Reads (fun _ => True) (written fs) := by
  induction fs with
  | nil =>
    intro c v c'
    rw [true_and]
    constructor
    · intro h
      cases h
      exact Cursor.passes_nil_iff.2 rfl
    · intro h
      obtain rfl := Cursor.passes_nil_iff.1 h
      rfl
  | cons f fs ih => exact f.decode_reads.pair ih

/-- A byte string that is read to its end is what the values write. -/
theorem decode_end_eq_ok_iff {fs : List WireFormat} {bs : Bytes} {vs : Fields fs} :
    (∃ c, (Fields.decode fs >>= fun vs => Decoder.expectEnd >>= fun _ => pure vs) (Cursor.ofBytes bs)
      = .ok vs c) ↔ bs = written fs vs := by
  constructor
  · rintro ⟨c, h⟩
    obtain ⟨v', c₁, hv, hrest⟩ := Step.bind_eq_ok_iff.1 h
    obtain ⟨_, c₂, hend, hpure⟩ := Step.bind_eq_ok_iff.1 hrest
    obtain ⟨-, hpass⟩ := (decode_reads fs _ _ _).1 hv
    cases hpure
    unfold Decoder.expectEnd at hend
    split at hend
    · rename_i hatEnd
      have hnil : c₁.rest = [] := List.isEmpty_iff.1 hatEnd
      have hall := hpass.rest_eq
      rwa [hnil, List.append_nil] at hall
    · cases hend
  · rintro rfl
    have hpass : (Cursor.ofBytes (written fs vs)).Passes (written fs vs) ⟨(written fs vs).length, []⟩ :=
      ⟨(List.append_nil _).symm, (Nat.zero_add _).symm⟩
    refine ⟨⟨(written fs vs).length, []⟩, ?_⟩
    rw [Step.bind_of_ok ((decode_reads fs _ _ _).2 ⟨trivial, hpass⟩)]
    rfl

/-- **The bytes of fields determine them.** -/
theorem written_inj {fs : List WireFormat} {vs ws : Fields fs} (h : written fs vs = written fs ws) :
    vs = ws := by
  obtain ⟨c, hvs⟩ := decode_end_eq_ok_iff.2 (Eq.refl (written fs vs))
  obtain ⟨c', hws⟩ := decode_end_eq_ok_iff.2 h
  cases hvs.symm.trans hws
  rfl

end Fields

/-! ### Writing and reading -/

/-- A decoder inverts a writer. -/
structure Decoder.Inverts {α : Type} (d : Decoder α) (write : α → Except CodecFault Bytes) : Prop where
  /-- Every value is written. -/
  written : ∀ v, ∃ bs, write v = .ok bs
  /-- What is written is read, whatever is before and behind it, and no further. -/
  read_written : ∀ {v bs}, write v = .ok bs → ∀ position behind,
    d ⟨position, bs ++ behind⟩ = .ok v ⟨position + bs.length, behind⟩
  /-- What is read of some bytes is what those bytes were written for. -/
  written_read : ∀ {c v c'}, d c = .ok v c' → ∃ n, n ≤ c.remaining ∧ c' = c.advance n ∧
    write v = .ok (c.rest.take n)

/-- A decoder that reads what is written inverts the writer. -/
theorem Decoder.Reads.inverts {α : Type} {d : Decoder α} {w : α → Bytes} (h : d.Reads (fun _ => True) w)
    {write : α → Except CodecFault Bytes} (hwrite : ∀ v, write v = .ok (w v)) : d.Inverts write where
  written v := ⟨w v, hwrite v⟩
  read_written := by
    intro v bs hbs position behind
    obtain rfl : w v = bs := Except.ok.inj ((hwrite v).symm.trans hbs)
    exact (h _ _ _).2 ⟨trivial, rfl, rfl⟩
  written_read := by
    intro c v c' hread
    obtain ⟨-, hpass⟩ := (h c v c').1 hread
    exact ⟨(w v).length, hpass.length_le, hpass.eq_advance, by rw [hwrite, hpass.take_eq]⟩

/-- **Reading inverts writing**, for every format and for every list of fields, sequences of sequences among
them. Every value is written; with any bytes behind it, it is read from exactly the bytes that were written;
and bytes that a value is read from are the only ones that it is written as. -/
theorem decode_inverts_encode :
    (∀ f : WireFormat, f.decode.Inverts f.encode) ∧
      ∀ fs : List WireFormat, (Fields.decode fs).Inverts (Fields.encode fs) := by
  constructor
  · intro f
    exact f.decode_reads.inverts f.encode_eq
  · intro fs
    exact (Fields.decode_reads fs).inverts (Fields.encode_eq fs)

end Stratum
