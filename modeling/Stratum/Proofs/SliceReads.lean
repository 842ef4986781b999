import Mathlib.Tactic.Ring
import Stratum.Proofs.SliceCursor

/-!
# What a reader looks at

Between the check that bytes are left and the move over them, a reader looks at memory with no check at all. Here
is what it looks at then, and what it makes of it (`Slice.Peeks`): it copies bytes (`Slice.copy_peeks`), it puts
a number together, from its last byte to its first (`Slice.digits_peeks`), or it checks a text
(`Slice.isUtf8_scans`), in step with the check of a byte string in which each look is a checked one. In all three
the places lie between two words; that sums of words do not wrap on the way is part of each proof.

The bytes of a slice are a byte string (`Slice.between`), and a place in the slice is a place in it
(`Slice.cursorAt`).
-/

namespace Stratum

/-! ### The bytes of a slice -/

namespace Slice

variable (sl : Slice)

/-- The bytes from place `a` up to place `b`. -/
def between (a b : Nat) : Bytes := (List.range' a (b - a)).map fun i => sl.memory (UInt64.ofNat i)

/-- A place in the byte string that a slice holds. -/
def cursorAt (place : UInt64) : Cursor := ⟨place.toNat, sl.between place.toNat sl.length.toNat⟩

@[simp] theorem length_between (a b : Nat) : (sl.between a b).length = b - a := by
  simp [between]

theorem between_append {a b c : Nat} (hab : a ≤ b) (hbc : b ≤ c) :
    sl.between a b ++ sl.between b c = sl.between a c := by
  have hrange : List.range' a (b - a) ++ List.range' b (c - b) = List.range' a (c - a) := by
    have h := @List.range'_append a (b - a) (c - b) 1
    rwa [Nat.one_mul, Nat.add_sub_cancel' hab, Nat.add_comm (b - a), Nat.sub_add_sub_cancel hbc hab] at h
  rw [between, between, between, ← List.map_append, hrange]

theorem between_cons {a b : Nat} (h : a < b) :
    sl.between a b = sl.memory (UInt64.ofNat a) :: sl.between (a + 1) b := by
  have hlen : b - a = (b - (a + 1)) + 1 := by omega
  rw [between, hlen, List.range'_succ, List.map_cons]
  rfl

theorem between_concat {a b : Nat} (h : a ≤ b) :
    sl.between a (b + 1) = sl.between a b ++ [sl.memory (UInt64.ofNat b)] := by
  rw [← sl.between_append h (Nat.le_succ b), sl.between_cons (Nat.lt_succ_self b)]
  simp [between]

theorem getElem?_between {a b i : Nat} (h : a + i < b) :
    (sl.between a b)[i]? = some (sl.memory (UInt64.ofNat (a + i))) := by
  have hi : i < b - a := by omega
  simp [between, hi]

theorem cursorAt_inj {p q : UInt64} (h : sl.cursorAt p = sl.cursorAt q) : p = q :=
  UInt64.toNat_inj.1 (congrArg Cursor.position h)

/-- A cursor passes the bytes between two places. -/
theorem passes_between {p q : UInt64} (hpq : p ≤ q) (hq : q ≤ sl.length) :
    (sl.cursorAt p).Passes (sl.between p.toNat q.toNat) (sl.cursorAt q) where
  rest_eq := (sl.between_append hpq hq).symm
  position_eq := by
    rw [length_between]
    exact (Nat.add_sub_cancel' (UInt64.le_iff_toNat_le.1 hpq)).symm

theorem toNat_remaining {c : SliceCursor} (h : c.position ≤ sl.length) :
    (sl.remaining c).toNat = (sl.cursorAt c.position).remaining := by
  rw [remaining, UInt64.toNat_sub_of_le _ _ h, Cursor.remaining, cursorAt, length_between]

/-- The check of a reader is the check of a decoder: as a difference of words it does not wrap. -/
theorem le_remaining_iff {c : SliceCursor} {n : UInt64} (h : c.position ≤ sl.length) :
    n ≤ sl.remaining c ↔ (sl.cursorAt c.position).has n.toNat = true := by
  rw [Cursor.has_iff, ← sl.toNat_remaining h, UInt64.le_iff_toNat_le]

/-- Where `n` bytes are left, the sum with the position does not wrap, and stays inside the slice. -/
theorem toNat_position_add {c : SliceCursor} {n : UInt64} (h : c.position ≤ sl.length)
    (hn : n ≤ sl.remaining c) :
    (c.position + n).toNat = c.position.toNat + n.toNat ∧
      c.position.toNat + n.toNat ≤ sl.length.toNat := by
  have hpos : c.position.toNat ≤ sl.length.toNat := UInt64.le_iff_toNat_le.1 h
  have hroom : n.toNat ≤ sl.length.toNat - c.position.toNat := by
    rw [← UInt64.toNat_sub_of_le _ _ h]
    exact UInt64.le_iff_toNat_le.1 hn
  have hsize : sl.length.toNat < UInt64.size := sl.length.toNat_lt
  exact ⟨Word.toNat_add (by omega), by omega⟩

/-! ### Looking without moving -/

section Peeking

variable {α β : Type} {lo hi : UInt64}

/-- The reader gives `a`, stays where it is, and looks at places from `lo` up to `hi` only. -/
def Peeks (m : SliceReader α) (a : α) (lo hi : UInt64) : Prop :=
  ∀ c, ∃ seen, m c = .ok a ⟨c.position, seen ++ c.inspected⟩ ∧ ∀ i ∈ seen, lo ≤ i ∧ i < hi

theorem peeks_pure (a : α) : Peeks (pure a) a lo hi := by
  intro c
  exact ⟨[], rfl, by simp⟩

theorem Peeks.bind {m : SliceReader α} {k : α → SliceReader β} {a : α} {b : β} (h : Peeks m a lo hi)
    (hk : Peeks (k a) b lo hi) : Peeks (m >>= k) b lo hi := by
  intro c
  obtain ⟨seen, hm, hseen⟩ := h c
  obtain ⟨seen', hm', hseen'⟩ := hk ⟨c.position, seen ++ c.inspected⟩
  refine ⟨seen' ++ seen, ?_, List.forall_mem_append.2 ⟨hseen', hseen⟩⟩
  rw [Step.bind_of_ok hm, hm', List.append_assoc]

theorem look_eq (place : UInt64) (c : SliceCursor) :
    sl.look place c = .ok (sl.memory place) ⟨c.position, place :: c.inspected⟩ := rfl

theorem look_peeks {place : UInt64} (hlo : lo ≤ place) (hhi : place < hi) :
    Peeks (sl.look place) (sl.memory place) lo hi := by
  intro c
  exact ⟨[place], rfl, List.forall_mem_singleton.2 ⟨hlo, hhi⟩⟩

/-- A place of the byte string between two words, as a look of a reader and as one of a checked scan. -/
theorem look_between {i : UInt64} (h : lo.toNat + i.toNat < hi.toNat) :
    (lo + i).toNat = lo.toNat + i.toNat ∧ Peeks (sl.look (lo + i)) (sl.memory (lo + i)) lo hi ∧
      (sl.between lo.toNat hi.toNat)[i.toNat]? = some (sl.memory (lo + i)) := by
  have hsize : hi.toNat < UInt64.size := hi.toNat_lt
  have hplace : (lo + i).toNat = lo.toNat + i.toNat := Word.toNat_add (by omega)
  refine ⟨hplace, sl.look_peeks (UInt64.le_iff_toNat_le.2 (by omega)) (UInt64.lt_iff_toNat_lt.2 (by omega)), ?_⟩
  rw [sl.getElem?_between h, ← hplace, UInt64.ofNat_toNat]

theorem copy_peeks {n : Nat} {place : UInt64} (hlo : lo ≤ place) (hhi : place.toNat + n ≤ hi.toNat) :
    Peeks (sl.copy n place) (sl.between place.toNat (place.toNat + n)) lo hi := by
  induction n generalizing place with
  | zero =>
    rw [Nat.add_zero, between, Nat.sub_self]
    exact peeks_pure []
  | succ n ih =>
    have hlt : place < hi := UInt64.lt_iff_toNat_lt.2 (by omega)
    have hnext : (place + 1).toNat = place.toNat + 1 := Word.toNat_add_one hlt
    have hlo' : lo ≤ place + 1 := by
      rw [UInt64.le_iff_toNat_le] at hlo ⊢
      omega
    have hrest := ih hlo' (by omega)
    rw [hnext, Nat.add_right_comm] at hrest
    rw [sl.between_cons (by omega), UInt64.ofNat_toNat]
    exact (sl.look_peeks hlo hlt).bind (hrest.bind (peeks_pure _))

end Peeking

end Slice

/-! ### Numbers -/

theorem Bytes.toNatLE_append (a b : Bytes) :
    toNatLE (a ++ b) = toNatLE a + capacity a.length * toNatLE b := by
  induction a with
  | nil => simp [toNatLE, capacity]
  | cons x a ih =>
    simp only [List.cons_append, toNatLE, ih, List.length_cons, capacity]
    rw [Nat.mul_add, ← Nat.mul_assoc, Nat.add_assoc]

theorem Bytes.capacity_eq_pow (n : Nat) : capacity n = 256 ^ n := by
  induction n with
  | zero => rfl
  | succ n ih => rw [capacity, ih, Nat.pow_succ']

theorem Bytes.capacity_pos (n : Nat) : 0 < capacity n := by
  rw [capacity_eq_pow]
  exact Nat.pow_pos (by decide)

theorem Bytes.capacity_le {m n : Nat} (h : m ≤ n) : capacity m ≤ capacity n := by
  rw [capacity_eq_pow, capacity_eq_pow]
  exact Nat.pow_le_pow_right (by decide) h

/-- Shifting and filling in the free bits is multiplying and adding, while 64 bits hold the number. -/
theorem Word.shiftLeft_or_eq {v : Nat} (h : (v + 1) * 256 ≤ UInt64.size) (b : UInt8) :
    UInt64.ofNat v <<< 8 ||| b.toUInt64 = UInt64.ofNat (v * 256 + b.toNat) := by
  have hb : b.toNat < 2 ^ 8 := b.toNat_lt
  have hsize : UInt64.size = 2 ^ 64 := rfl
  have hv : v < 2 ^ 64 := by omega
  have hshift : v <<< 8 = v * 256 := Nat.shiftLeft_eq v 8
  apply UInt64.toNat_inj.1
  rw [UInt64.toNat_or, UInt64.toNat_shiftLeft, UInt64.toNat_ofNat', UInt64.toNat_ofNat',
    UInt8.toNat_toUInt64, Nat.mod_eq_of_lt hv]
  show v <<< 8 % 2 ^ 64 ||| b.toNat = _
  rw [Nat.mod_eq_of_lt (by omega), ← Nat.shiftLeft_add_eq_or_of_lt hb, hshift,
    Nat.mod_eq_of_lt (by omega)]

namespace Slice

variable (sl : Slice)

theorem digits_peeks {place hi : UInt64} {n v : Nat} (hhi : place.toNat + n ≤ hi.toNat)
    (hsmall : (v + 1) * Bytes.capacity n ≤ UInt64.size) :
    Peeks (sl.digits place n (UInt64.ofNat v))
      (UInt64.ofNat (v * Bytes.capacity n + Bytes.toNatLE (sl.between place.toNat (place.toNat + n))))
      place hi := by
  induction n generalizing v with
  | zero =>
    simp only [Nat.add_zero, between, Nat.sub_self, List.range'_zero, List.map_nil, Bytes.toNatLE,
      Bytes.capacity, Nat.mul_one]
    exact peeks_pure _
  | succ n ih =>
    have hsize : hi.toNat < UInt64.size := hi.toNat_lt
    have hn : (UInt64.ofNat n).toNat = n := UInt64.toNat_ofNat_of_lt' (by omega)
    have hin : place.toNat + (UInt64.ofNat n).toNat < hi.toNat := by omega
    obtain ⟨hplace, hlook, -⟩ := sl.look_between hin
    rw [hn] at hplace
    generalize hb : sl.memory (place + UInt64.ofNat n) = b at hlook
    have hone : (v + 1) * 256 ≤ UInt64.size := by
      refine Nat.le_trans (Nat.mul_le_mul_left _ ?_) hsmall
      rw [Bytes.capacity]
      exact Nat.le_mul_of_pos_right 256 (Bytes.capacity_pos n)
    have hnext : (v * 256 + b.toNat + 1) * Bytes.capacity n ≤ UInt64.size := by
      have hlt : b.toNat < 256 := b.toNat_lt
      rw [Bytes.capacity, ← Nat.mul_assoc] at hsmall
      exact Nat.le_trans (Nat.mul_le_mul_right _ (by omega)) hsmall
    -- The byte that is looked at is the last one of the `n + 1`.
    have hlast : sl.between place.toNat (place.toNat + (n + 1)) =
        sl.between place.toNat (place.toNat + n) ++ [b] := by
      rw [← hb, ← Nat.add_assoc, sl.between_concat (Nat.le_add_right _ n), ← hplace, UInt64.ofNat_toNat]
    have hvalue : v * Bytes.capacity (n + 1) +
        Bytes.toNatLE (sl.between place.toNat (place.toNat + (n + 1))) =
        (v * 256 + b.toNat) * Bytes.capacity n +
          Bytes.toNatLE (sl.between place.toNat (place.toNat + n)) := by
      rw [hlast, Bytes.toNatLE_append, length_between, Nat.add_sub_cancel_left, Bytes.capacity]
      simp only [Bytes.toNatLE]
      ring
    have hrest := ih (by omega) hnext
    rw [← Word.shiftLeft_or_eq hone b, ← hvalue] at hrest
    exact hlook.bind hrest

end Slice

/-! ### The check of a text -/

theorem Utf8.Announcement.extra_le {b : UInt8} {a : Announcement} (h : announcement? b = some a) : a.extra ≤ 3 := by
  obtain ⟨-, rfl⟩ | ⟨-, rfl⟩ | ⟨-, rfl⟩ := announcement?_cases h
  all_goals simp

namespace Slice

variable (sl : Slice)

section Text

variable {α β : Type} {lo hi : UInt64}

/-- The reader looks at places from `lo` up to `hi` only, and gives what a checked scan gives, which has a
result. -/
def Scans (m : SliceReader α) (o : Option α) (lo hi : UInt64) : Prop := ∃ a, o = some a ∧ Peeks m a lo hi

theorem scans_pure (a : α) : Scans (pure a) (some a) lo hi := ⟨a, rfl, peeks_pure a⟩

theorem Peeks.scans {m : SliceReader β} {k : β → SliceReader α} {b : β} {o : Option α} (h : Peeks m b lo hi)
    (hk : Scans (k b) o lo hi) : Scans (m >>= k) o lo hi := by
  obtain ⟨a, ha, hpeeks⟩ := hk
  exact ⟨a, ha, h.bind hpeeks⟩

theorem Scans.ite {p : Prop} [Decidable p] {m m' : SliceReader α} {o o' : Option α}
    (h : p → Scans m o lo hi) (h' : ¬ p → Scans m' o' lo hi) :
    Scans (if p then m else m') (if p then o else o') lo hi := by
  by_cases hp : p
  · rw [if_pos hp, if_pos hp]
    exact h hp
  · rw [if_neg hp, if_neg hp]
    exact h' hp

theorem continuation_scans {n i : Nat} {v : UInt32} (hin : i + n ≤ hi.toNat - lo.toNat) :
    Scans (sl.continuation n (lo + UInt64.ofNat i) v)
      (Utf8.continueAt (sl.between lo.toNat hi.toNat) n i v) lo hi := by
  induction n generalizing i v with
  | zero => exact scans_pure (some v)
  | succ n ih =>
    have hsize : hi.toNat < UInt64.size := hi.toNat_lt
    have hi' : (UInt64.ofNat i).toNat = i := UInt64.toNat_ofNat_of_lt' (by omega)
    have hplace : lo.toNat + (UInt64.ofNat i).toNat < hi.toNat := by omega
    obtain ⟨-, hlook, hbyte⟩ := sl.look_between hplace
    rw [hi'] at hbyte
    rw [Utf8.continueAt, hbyte, continuation]
    generalize sl.memory (lo + UInt64.ofNat i) = b at hlook
    have hrest := ih (i := i + 1) (v := v <<< 6 ||| (b &&& 0x3F).toUInt32) (by omega)
    rw [UInt64.ofNat_add, ← UInt64.add_assoc] at hrest
    exact hlook.scans (.ite (fun _ => hrest) fun _ => scans_pure none)

/-- What the check does behind a first byte, where the announced bytes are there. -/
theorem character_scans {a : Utf8.Announcement} {i : Nat} (hin : i + a.extra ≤ hi.toNat - lo.toNat)
    {m : SliceReader Bool} {o : Option Bool} (h : Scans m o lo hi) :
    Scans
      (do
        match ← sl.continuation a.extra (lo + UInt64.ofNat i) a.bits with
        | none => return false
        | some v =>
          if v < a.least ∨ (0xD800 ≤ v ∧ v ≤ 0xDFFF) ∨ 0x10FFFF < v then return false else m)
      (match Utf8.continueAt (sl.between lo.toNat hi.toNat) a.extra i a.bits with
        | none => none
        | some none => some false
        | some (some v) =>
          if v < a.least ∨ (0xD800 ≤ v ∧ v ≤ 0xDFFF) ∨ 0x10FFFF < v then some false else o) lo hi := by
  obtain ⟨r, hr, hpeeks⟩ := sl.continuation_scans (v := a.bits) hin
  rw [hr]
  refine hpeeks.scans ?_
  cases r with
  | none => exact scans_pure false
  | some v => exact .ite (fun _ => scans_pure false) fun _ => h

/-- The check over memory runs in step with the one over a byte string. -/
theorem isUtf8_scans (hle : lo ≤ hi) {i : UInt64} (hi' : i ≤ hi - lo) :
    Scans (sl.isUtf8 lo (hi - lo) i) (Utf8.scan (sl.between lo.toNat hi.toNat) i.toNat) lo hi := by
  have hlen : (hi - lo).toNat = hi.toNat - lo.toNat := UInt64.toNat_sub_of_le _ _ hle
  -- By the number of bytes from the place on, as the loop ends.
  induction hn : hi.toNat - lo.toNat - i.toNat using Nat.strong_induction_on generalizing i with
  | _ m ih =>
    have hbefore : i < hi - lo ↔ i.toNat < hi.toNat - lo.toNat := by rw [UInt64.lt_iff_toNat_lt, hlen]
    rw [Utf8.scan, isUtf8, length_between]
    by_cases hlt : i < hi - lo
    · have hlt' := hbefore.1 hlt
      -- What is behind goes on as this does, from a later place that is still in the text.
      have hnext : ∀ {j : UInt64} (k : Nat), j.toNat = i.toNat + (k + 1) →
          i.toNat + (k + 1) ≤ hi.toNat - lo.toNat →
          Scans (sl.isUtf8 lo (hi - lo) j)
            (Utf8.scan (sl.between lo.toNat hi.toNat) (i.toNat + (k + 1))) lo hi := by
        intro j k hj hjle
        have hjle' : j ≤ hi - lo := by rwa [UInt64.le_iff_toNat_le, hlen, hj]
        rw [← hj]
        exact ih (hi.toNat - lo.toNat - j.toNat) (by omega) hjle' rfl
      have hone : (i + 1).toNat = i.toNat + 1 := Word.toNat_add_one hlt
      have hplace : lo.toNat + i.toNat < hi.toNat := by omega
      obtain ⟨-, hlook, hbyte⟩ := sl.look_between hplace
      rw [dif_pos hlt, dif_pos hlt', hbyte]
      generalize sl.memory (lo + i) = b at hlook
      refine hlook.scans (.ite (fun _ => hnext 0 hone hlt') fun _ => ?_)
      cases ha : Utf8.announcement? b with
      | none => exact scans_pure false
      | some a =>
        have hextra : (UInt64.ofNat a.extra).toNat = a.extra := by
          have h3 := Utf8.Announcement.extra_le ha
          exact UInt64.toNat_ofNat_of_lt' (Nat.lt_of_le_of_lt h3 (by decide))
        have hleft : hi - lo - i ≤ UInt64.ofNat a.extra ↔ hi.toNat - lo.toNat - i.toNat ≤ a.extra := by
          rw [UInt64.le_iff_toNat_le, UInt64.toNat_sub_of_le _ _ (UInt64.le_of_lt hlt), hlen, hextra]
        dsimp only
        by_cases hroom : hi.toNat - lo.toNat - i.toNat ≤ a.extra
        · rw [dif_pos (hleft.2 hroom), if_pos hroom]
          exact scans_pure false
        · have hj := Word.toNat_add_succ hlt (mt hleft.1 hroom)
          rw [hextra] at hj
          have hbehind : UInt64.ofNat (i.toNat + 1) = i + 1 := by rw [← hone, UInt64.ofNat_toNat]
          rw [dif_neg (mt hleft.1 hroom), if_neg hroom, ← hbehind]
          exact sl.character_scans (by omega) (hnext a.extra hj (by omega))
    · rw [dif_neg hlt, dif_neg (mt hbefore.2 hlt)]
      exact scans_pure true

end Text

end Slice

end Stratum
