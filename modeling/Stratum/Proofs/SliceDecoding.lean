import Stratum.Proofs.SliceReads

/-!
# Reading memory is decoding

A reader of a slice and a decoder at a cursor do the same (`Slice.Follows`): anywhere inside the slice they both
succeed, with related values, or both fail, with the same fault, and they stop at the same place. On the way the
reader looks at nothing outside the slice, and if it succeeds at nothing that it does not pass (`Slice.Moves`).

Sequencing keeps this (`Slice.FollowsAt.bind`). The readers of fixed size are instances of one
(`Slice.consume_follows`), in which only what is made of the bytes differs. A truth value is looked at before it is
passed, and a length prefix is passed before it is refused; both leave the cursor where it was. The text check looks
at bytes that no check of its own covers (`Slice.utf8_followsAt`), so it takes the length prefix in front of it to
know that they are there. Formats and lists of fields follow by induction, and so does every call
(`Slice.perform_follows`).
-/

namespace Stratum

/-! ### Decoders that fail without moving -/

namespace Decoder

variable {α β : Type}

/-- Where the decoder fails, it leaves the cursor where it was. -/
def Stays (d : Decoder α) : Prop := ∀ c e c', d c = .error e c' → c' = c

theorem take_stays (n : Nat) : (take n).Stays := by
  intro c e c' h
  unfold take at h
  split at h
  · cases h
  · cases h
    rfl

theorem Stays.map {d : Decoder α} (h : d.Stays) (g : α → β) : (d >>= fun a => pure (g a)).Stays := by
  intro c e c' hfail
  obtain hfirst | ⟨a, c₁, -, hpure⟩ := Step.bind_eq_error_iff.1 hfail
  · exact h c e c' hfirst
  · cases hpure

theorem number_stays (n : Nat) : (number n).Stays := (take_stays n).map Bytes.toNatLE

theorem bool_stays : bool.Stays := by
  intro c e c' h
  unfold bool at h
  split at h
  · cases h
    rfl
  · split at h
    · cases h
    · cases h
      rfl

theorem length_stays (width max : Nat) : (length width max).Stays := by
  intro c e c' h
  unfold length at h
  split at h
  · split at h
    · cases h
      rfl
    · split at h
      · cases h
        rfl
      · split at h
        · cases h
        · cases h
          rfl
  · cases h
    rfl

theorem expectEnd_stays : expectEnd.Stays := by
  intro c e c' h
  unfold expectEnd at h
  split at h
  · cases h
  · cases h
    rfl

end Decoder

namespace Slice

variable (sl : Slice)

/-! ### A reader beside a decoder -/

/-- From `c` the cursor came to `c'`: not back, not out of the slice, and past places before `bound` only. -/
structure Moves (c c' : SliceCursor) (bound : UInt64) : Prop where
  /-- It did not go back. -/
  forward : c.position ≤ c'.position
  /-- It is inside the slice. -/
  inside : c'.position ≤ sl.length
  /-- What was looked at lies before the bound, and not before the place where it was. -/
  inspected : ∃ seen, c'.inspected = seen ++ c.inspected ∧ ∀ i ∈ seen, c.position ≤ i ∧ i < bound

/-- What a reader and a decoder come to from `c` on: values that are related, or the same fault, at the same
place. -/
inductive Agrees {α β : Type} (R : α → β → Prop) (c : SliceCursor) :
    EStateM.Result CodecFault SliceCursor α → EStateM.Result CodecFault Cursor β → Prop
  /-- Both succeed, and what was looked at was passed. -/
  | ok {a : α} {b : β} {c' : SliceCursor} (related : R a b) (moves : sl.Moves c c' c'.position) :
    Agrees R c (.ok a c') (.ok b (sl.cursorAt c'.position))
  /-- Both fail, and what was looked at lies in the slice. -/
  | error {e : CodecFault} {c' : SliceCursor} (moves : sl.Moves c c' sl.length) :
    Agrees R c (.error e c') (.error e (sl.cursorAt c'.position))

/-- The reader does at `c` what the decoder does at the same place of the byte string. -/
def FollowsAt {α β : Type} (c : SliceCursor) (m : SliceReader α) (R : α → β → Prop) (d : Decoder β) :
    Prop :=
  sl.Agrees R c (m c) (d (sl.cursorAt c.position))

/-- The reader does what the decoder does, anywhere inside the slice. -/
def Follows {α β : Type} (m : SliceReader α) (R : α → β → Prop) (d : Decoder β) : Prop :=
  ∀ c, c.position ≤ sl.length → sl.FollowsAt c m R d

section Following

variable {sl} {α β γ δ : Type} {R : α → β → Prop} {S : γ → δ → Prop} {c c' c'' : SliceCursor}
  {m : SliceReader α} {d : Decoder β} {bound : UInt64}

theorem Moves.refl (h : c.position ≤ sl.length) : sl.Moves c c bound where
  forward := UInt64.le_refl _
  inside := h
  inspected := ⟨[], rfl, by simp⟩

theorem Moves.mono {bound' : UInt64} (h : sl.Moves c c' bound) (hb : bound ≤ bound') :
    sl.Moves c c' bound' where
  forward := h.forward
  inside := h.inside
  inspected := by
    obtain ⟨seen, hseen, hin⟩ := h.inspected
    exact ⟨seen, hseen, fun i hi => ⟨(hin i hi).1, UInt64.lt_of_lt_of_le (hin i hi).2 hb⟩⟩

theorem Moves.trans (h : sl.Moves c c' bound) (h' : sl.Moves c' c'' bound) : sl.Moves c c'' bound where
  forward := UInt64.le_trans h.forward h'.forward
  inside := h'.inside
  inspected := by
    obtain ⟨seen, hseen, hin⟩ := h.inspected
    obtain ⟨seen', hseen', hin'⟩ := h'.inspected
    have hlater : ∀ i ∈ seen', c.position ≤ i ∧ i < bound := by
      intro i hi
      exact ⟨UInt64.le_trans h.forward (hin' i hi).1, (hin' i hi).2⟩
    exact ⟨seen' ++ seen, by rw [hseen', hseen, List.append_assoc],
      List.forall_mem_append.2 ⟨hlater, hin⟩⟩

theorem follows_pure {a : α} {b : β} (h : R a b) : sl.Follows (pure a) R (pure b) := by
  intro c hc
  exact .ok h (.refl hc)

/-- Readers one after another follow decoders one after another. What is behind may use what the first parts
came to. -/
theorem FollowsAt.bind {k : α → SliceReader γ} {l : β → Decoder δ} (h : sl.FollowsAt c m R d)
    (hk : ∀ a b c₁, m c = .ok a c₁ → d (sl.cursorAt c.position) = .ok b (sl.cursorAt c₁.position) →
      R a b → c₁.position ≤ sl.length → sl.FollowsAt c₁ (k a) S (l b)) :
    sl.FollowsAt c (m >>= k) S (d >>= l) := by
  unfold FollowsAt at h ⊢
  generalize hm : m c = r, hd : d (sl.cursorAt c.position) = r' at h
  cases h with
  | error moves =>
    rw [Step.bind_of_error hm, Step.bind_of_error hd]
    exact .error moves
  | @ok a b c₁ related moves =>
    have hrest := hk a b c₁ hm hd related moves.inside
    unfold FollowsAt at hrest
    rw [Step.bind_of_ok hm, Step.bind_of_ok hd]
    generalize k a c₁ = r, l b (sl.cursorAt c₁.position) = r' at hrest
    cases hrest with
    | ok related' moves' => exact .ok related' ((moves.mono moves'.forward).trans moves')
    | error moves' => exact .error ((moves.mono moves.inside).trans moves')

theorem Follows.bind {k : α → SliceReader γ} {l : β → Decoder δ} (h : sl.Follows m R d)
    (hk : ∀ a b, R a b → sl.Follows (k a) S (l b)) : sl.Follows (m >>= k) S (d >>= l) := by
  intro c hc
  exact (h c hc).bind fun a b c₁ _ _ hab hc₁ => hk a b hab c₁ hc₁

/-- Conversions behind a reader and a decoder. -/
theorem Follows.map {f : α → γ} {g : β → δ} (h : sl.Follows m R d) (hfg : ∀ a b, R a b → S (f a) (g b)) :
    sl.Follows (m >>= fun a => pure (f a)) S (d >>= fun b => pure (g b)) :=
  h.bind fun a b hab => follows_pure (hfg a b hab)

/-- A conversion behind the decoder only. -/
theorem Follows.map_right {T : α → δ → Prop} {g : β → δ} (h : sl.Follows m R d)
    (hg : ∀ a b, R a b → T a (g b)) : sl.Follows m T (d >>= fun b => pure (g b)) := by
  rw [← bind_pure m]
  exact h.map hg

/-- A conversion behind the reader only. -/
theorem Follows.map_left {T : γ → β → Prop} {f : α → γ} (h : sl.Follows m R d)
    (hf : ∀ a b, R a b → T (f a) b) : sl.Follows (m >>= fun a => pure (f a)) T d := by
  rw [← bind_pure d]
  exact h.map hf

theorem Follows.mono {R' : α → β → Prop} (h : sl.Follows m R d) (hR : ∀ a b, R a b → R' a b) :
    sl.Follows m R' d := by
  rw [← bind_pure m, ← bind_pure d]
  exact h.map hR

theorem follows_ofExcept (x : Except CodecFault α) :
    sl.Follows (MonadExcept.ofExcept x) (· = ·) (Decoder.ofExcept x) := by
  intro c hc
  cases x with
  | ok a => exact .ok rfl (.refl hc)
  | error e => exact .error (.refl hc)

end Following

/-! ### Readers of fixed size -/

section Fixed

variable {sl} {α : Type} {c : SliceCursor} {n : UInt64} {body : UInt64 → SliceReader α} {a : α}

theorem need_of_le (h : n ≤ sl.remaining c) : sl.need n c = .ok () c := by
  show (if n ≤ sl.remaining c then pure () else throw .truncated : SliceReader Unit) c = _
  rw [if_pos h]
  rfl

theorem need_of_lt (h : ¬ n ≤ sl.remaining c) : sl.need n c = .error .truncated c := by
  show (if n ≤ sl.remaining c then pure () else throw .truncated : SliceReader Unit) c = _
  rw [if_neg h]
  rfl

theorem consume_of_le (h : n ≤ sl.remaining c)
    (hbody : Peeks (body c.position) a c.position (c.position + n)) :
    ∃ seen, sl.consume n body c = .ok a ⟨c.position + n, seen ++ c.inspected⟩ ∧
      ∀ i ∈ seen, c.position ≤ i ∧ i < c.position + n := by
  obtain ⟨seen, hrun, hseen⟩ := hbody c
  refine ⟨seen, ?_, hseen⟩
  unfold consume
  rw [Step.bind_of_ok (need_of_le h), Step.get_bind, Step.bind_of_ok hrun]
  rfl

theorem consume_of_lt (h : ¬ n ≤ sl.remaining c) : sl.consume n body c = .error .truncated c := by
  unfold consume
  exact Step.bind_of_error (need_of_lt h)

/-- The cursor behind `n` bytes that are left. -/
theorem cursorAt_advance (hc : c.position ≤ sl.length) (h : n ≤ sl.remaining c) :
    (sl.cursorAt c.position).advance n.toNat = sl.cursorAt (c.position + n) ∧
      (sl.cursorAt c.position).rest.take n.toNat = sl.between c.position.toNat (c.position + n).toNat := by
  obtain ⟨hsum, hin⟩ := sl.toNat_position_add hc h
  have hpass := sl.passes_between (p := c.position) (q := c.position + n)
    (UInt64.le_iff_toNat_le.2 (by omega)) (UInt64.le_iff_toNat_le.2 (by omega))
  have hlen : (sl.between c.position.toNat (c.position + n).toNat).length = n.toNat := by
    rw [length_between, hsum, Nat.add_sub_cancel_left]
  have hadvance := hpass.eq_advance
  have htake := hpass.take_eq
  rw [hlen] at hadvance htake
  exact ⟨hadvance.symm, htake⟩

theorem moves_advance (hc : c.position ≤ sl.length) (h : n ≤ sl.remaining c) {seen : List UInt64}
    (hseen : ∀ i ∈ seen, c.position ≤ i ∧ i < c.position + n) :
    sl.Moves c ⟨c.position + n, seen ++ c.inspected⟩ (c.position + n) := by
  obtain ⟨hsum, hin⟩ := sl.toNat_position_add hc h
  refine ⟨UInt64.le_iff_toNat_le.2 ?_, UInt64.le_iff_toNat_le.2 ?_, seen, rfl, hseen⟩
  · rw [hsum]
    exact Nat.le_add_right _ _
  · rw [hsum]
    exact hin

/-- **A reader of fixed size takes the next bytes**, and gives what it makes of them. -/
theorem consume_follows {g : Bytes → α}
    (hbody : ∀ place : UInt64, (place + n).toNat = place.toNat + n.toNat →
      Peeks (body place) (g (sl.between place.toNat (place + n).toNat)) place (place + n)) :
    sl.Follows (sl.consume n body) (fun a bs => a = g bs ∧ bs.length = n.toNat) (Decoder.take n.toNat) := by
  intro c hc
  unfold FollowsAt Decoder.take
  by_cases h : n ≤ sl.remaining c
  · obtain ⟨hsum, -⟩ := sl.toNat_position_add hc h
    obtain ⟨hadvance, htake⟩ := cursorAt_advance hc h
    obtain ⟨seen, hrun, hseen⟩ := consume_of_le h (hbody c.position hsum)
    rw [if_pos ((sl.le_remaining_iff hc).1 h), hrun, hadvance, htake]
    refine .ok ⟨rfl, ?_⟩ (moves_advance hc h hseen)
    rw [length_between, hsum, Nat.add_sub_cancel_left]
  · rw [if_neg (mt (sl.le_remaining_iff hc).2 h), consume_of_lt h]
    exact .error (.refl hc)

/-- Copying the next `n` bytes, where their end does not wrap. -/
theorem copy_next_peeks {place : UInt64} (h : (place + n).toNat = place.toNat + n.toNat) :
    Peeks (sl.copy n.toNat place) (sl.between place.toNat (place + n).toNat) place (place + n) := by
  rw [h]
  exact sl.copy_peeks (UInt64.le_refl _) (Nat.le_of_eq h.symm)

theorem take_follows (n : UInt64) :
    sl.Follows (sl.take n) (fun a bs => a = bs ∧ bs.length = n.toNat) (Decoder.take n.toNat) :=
  consume_follows (g := fun bs => bs) fun _ h => copy_next_peeks h

theorem readInto_follows (n : UInt64) :
    sl.Follows (sl.readInto n) (fun a bs => a = bs ∧ bs.length = n.toNat) (Decoder.take n.toNat) := by
  refine consume_follows (g := fun bs => bs) fun place h => ?_
  by_cases hn : n ≠ 0
  · rw [if_pos hn]
    exact copy_next_peeks h
  · have hzero : n = 0 := by simpa using hn
    subst hzero
    rw [if_neg hn, UInt64.add_zero, between, Nat.sub_self]
    exact peeks_pure []

theorem skip_follows (n : UInt64) :
    sl.Follows (sl.skip n) (· = ·) (Decoder.take n.toNat >>= fun _ => pure ()) :=
  Follows.map_right (consume_follows (g := fun _ => ()) fun _ _ => peeks_pure ()) fun _ _ _ => rfl

/-- A number of up to eight bytes. -/
theorem number_follows {n : Nat} (hn : n ≤ 8) :
    sl.Follows (sl.number n) (fun a v => a.toNat = v ∧ v < Bytes.capacity n) (Decoder.number n) := by
  have hword : (UInt64.ofNat n).toNat = n := UInt64.toNat_ofNat_of_lt' (Nat.lt_of_le_of_lt hn (by decide))
  have hsize : Bytes.capacity n ≤ UInt64.size := Bytes.capacity_le hn
  have hbytes : sl.Follows (sl.number n)
      (fun a bs => a = UInt64.ofNat (Bytes.toNatLE bs) ∧ bs.length = (UInt64.ofNat n).toNat)
      (Decoder.take (UInt64.ofNat n).toNat) := by
    refine consume_follows fun place h => ?_
    rw [hword] at h
    have hfits : place.toNat + n ≤ (place + UInt64.ofNat n).toNat := Nat.le_of_eq h.symm
    have hdigits := sl.digits_peeks (v := 0) hfits (by rwa [Nat.zero_add, Nat.one_mul])
    rw [h]
    rwa [Nat.zero_mul, Nat.zero_add] at hdigits
  rw [hword] at hbytes
  refine hbytes.map_right ?_
  rintro a bs ⟨rfl, hlen⟩
  have hlt : Bytes.toNatLE bs < Bytes.capacity n := hlen ▸ Bytes.toNatLE_lt bs
  exact ⟨UInt64.toNat_ofNat_of_lt' (Nat.lt_of_lt_of_le hlt hsize), hlt⟩

theorem u8_follows : sl.Follows sl.u8 (· = ·) WireFormat.u8.decode := by
  refine (number_follows (by decide)).map ?_
  rintro a v ⟨rfl, -⟩
  rfl

theorem u16_follows : sl.Follows sl.u16 (· = ·) WireFormat.u16.decode := by
  refine (number_follows (by decide)).map ?_
  rintro a v ⟨rfl, -⟩
  rfl

theorem u24_follows : sl.Follows sl.u24 (fun a v => a = UInt32.ofNat v) (Decoder.number 3) := by
  refine (number_follows (by decide)).map_left ?_
  rintro a v ⟨rfl, -⟩
  rfl

theorem u32_follows : sl.Follows sl.u32 (fun a v => a = UInt32.ofNat v) (Decoder.number 4) := by
  refine (number_follows (by decide)).map_left ?_
  rintro a v ⟨rfl, -⟩
  rfl

theorem u64_follows : sl.Follows sl.u64 (· = ·) WireFormat.u64.decode := by
  refine (number_follows (by decide)).map_right ?_
  rintro a v ⟨rfl, -⟩
  exact UInt64.ofNat_toNat.symm

theorem f32_follows : sl.Follows sl.f32 (· = ·) WireFormat.f32.decode := by
  refine u32_follows.map ?_
  rintro a v rfl
  rfl

theorem boolean_follows : sl.Follows sl.boolean (· = ·) Decoder.bool := by
  intro c hc
  have hone : (1 : UInt64).toNat = 1 := rfl
  unfold FollowsAt boolean
  by_cases h : 1 ≤ sl.remaining c
  · obtain ⟨hsum, hin⟩ := sl.toNat_position_add hc h
    obtain ⟨hadvance, -⟩ := cursorAt_advance hc h
    have hrest : (sl.cursorAt c.position).rest = sl.memory c.position ::
        sl.between (c.position.toNat + 1) sl.length.toNat := by
      rw [cursorAt, sl.between_cons (by omega), UInt64.ofNat_toNat]
    have hnext : c.position < c.position + 1 := UInt64.lt_iff_toNat_lt.2 (by omega)
    have hmoves := moves_advance hc h (List.forall_mem_singleton.2 ⟨UInt64.le_refl _, hnext⟩)
    rw [hone] at hadvance
    rw [Step.bind_of_ok (need_of_le h), Step.get_bind, Step.bind_of_ok (sl.look_eq c.position c),
      Decoder.bool, hrest, hadvance]
    dsimp only
    -- The byte is looked at before it is passed.
    by_cases hb : sl.memory c.position ≤ 1
    · rw [if_pos hb, if_pos hb]
      exact .ok rfl hmoves
    · rw [if_neg hb, if_neg hb]
      exact .error ⟨UInt64.le_refl _, hc, (hmoves.mono hmoves.inside).inspected⟩
  · have hnil : (sl.cursorAt c.position).rest = [] := by
      have hhas := mt (sl.le_remaining_iff hc).2 h
      rw [Cursor.has_iff, hone, Cursor.remaining] at hhas
      exact List.length_eq_zero_iff.1 (by omega)
    rw [Step.bind_of_error (need_of_lt h), Decoder.bool, hnil]
    exact .error (.refl hc)

theorem expectEnd_follows : sl.Follows sl.expectEnd (· = ·) Decoder.expectEnd := by
  intro c hc
  have hend : c.position = sl.length ↔ (sl.cursorAt c.position).atEnd = true := by
    rw [Cursor.atEnd, List.isEmpty_iff, ← List.length_eq_zero_iff, cursorAt, length_between,
      ← UInt64.toNat_inj]
    have hle := UInt64.le_iff_toNat_le.1 hc
    omega
  unfold FollowsAt expectEnd Decoder.expectEnd
  rw [Step.get_bind]
  by_cases h : c.position = sl.length
  · rw [if_pos h, if_pos (hend.1 h)]
    exact .ok rfl (.refl hc)
  · rw [if_neg h, if_neg (mt hend.2 h)]
    exact .error (.refl hc)

end Fixed

/-! ### Length prefixes -/

section Prefix

variable {sl} {c : SliceCursor}

/-- A number of up to three bytes, in a word of its own size and back in one of 64 bits. -/
theorem narrowed_follows {α : Type} {n : Nat} {narrow : UInt64 → α} {widen : α → UInt64} (hn : n ≤ 3)
    (hsame : ∀ v, v.toNat < Bytes.capacity n → (widen (narrow v)).toNat = v.toNat) :
    sl.Follows ((sl.number n >>= fun v => pure (narrow v)) >>= fun a => pure (widen a))
      (fun a v => a.toNat = v) (Decoder.number n) := by
  refine Follows.map_left (R := fun a v => (widen a).toNat = v) ?_ fun _ _ h => h
  refine (number_follows (by omega)).map_left ?_
  rintro a v ⟨rfl, hlt⟩
  exact hsame a hlt

theorem prefixNumber_follows {width : UInt64} (h : 1 ≤ width.toNat ∧ width.toNat ≤ 3) :
    sl.Follows (sl.prefixNumber width) (fun a n => a.toNat = n) (Decoder.number width.toNat) := by
  -- A width is 1, 2 or 3, and each has its own branch.
  obtain rfl | rfl | rfl : width = 1 ∨ width = 2 ∨ width = 3 := by
    simp only [← UInt64.toNat_inj, UInt64.reduceToNat]
    omega
  · refine narrowed_follows (by decide) fun v hv => ?_
    rw [UInt8.toNat_toUInt64, UInt64.toNat_toUInt8]
    exact Nat.mod_eq_of_lt hv
  · refine narrowed_follows (by decide) fun v hv => ?_
    rw [UInt16.toNat_toUInt64, UInt64.toNat_toUInt16]
    exact Nat.mod_eq_of_lt hv
  · refine narrowed_follows (by decide) fun v hv => ?_
    rw [UInt32.toNat_toUInt64, UInt64.toNat_toUInt32]
    exact Nat.mod_eq_of_lt (Nat.lt_trans hv (by decide))

theorem prefixNumber_of_width {width : UInt64} (h : ¬ (1 ≤ width.toNat ∧ width.toNat ≤ 3)) :
    sl.prefixNumber width c = .error .prefixWidth c := by
  have hne : ¬ width = 1 ∧ ¬ width = 2 ∧ ¬ width = 3 := by
    simp only [← UInt64.toNat_inj, UInt64.reduceToNat]
    omega
  rw [prefixNumber, if_neg hne.1, if_neg hne.2.1, if_neg hne.2.2]
  rfl

/-- **A length prefix is read whole or not at all**: what it counts is in the slice behind it, and a prefix that
is refused is given back. -/
theorem lengthPrefix_follows (width max : UInt64) :
    sl.Follows (sl.lengthPrefix width max) (fun a n => a.toNat = n)
      (Decoder.length width.toNat max.toNat) := by
  intro c hc
  unfold FollowsAt lengthPrefix
  rw [Step.get_bind, Decoder.length]
  by_cases hw : 1 ≤ width.toNat ∧ width.toNat ≤ 3
  · rw [if_pos hw]
    have hnumber : sl.FollowsAt c (sl.prefixNumber width) _ _ := prefixNumber_follows hw c hc
    have hstays := Decoder.number_stays width.toNat (sl.cursorAt c.position)
    unfold FollowsAt at hnumber
    generalize hm : sl.prefixNumber width c = r,
      hd : Decoder.number width.toNat (sl.cursorAt c.position) = r' at hnumber hstays
    cases hnumber with
    | @error e c₁ moves =>
      have hback : sl.cursorAt c₁.position = sl.cursorAt c.position := hstays _ _ rfl
      rw [Step.bind_of_error hm]
      dsimp only
      rw [← hback]
      exact .error moves
    | @ok a n c₁ related moves =>
      subst related
      rw [Step.bind_of_ok hm]
      dsimp only
      -- Both refusals go back to the start, with the prefix looked at.
      have hback : sl.Moves c ⟨c.position, c₁.inspected⟩ sl.length :=
        ⟨UInt64.le_refl _, hc, (moves.mono moves.inside).inspected⟩
      by_cases hmax : max < a
      · rw [if_pos hmax, if_pos (UInt64.lt_iff_toNat_lt.1 hmax)]
        exact .error hback
      · rw [if_neg hmax, if_neg (mt UInt64.lt_iff_toNat_lt.2 hmax), Step.get_bind]
        by_cases hroom : a ≤ sl.remaining c₁
        · rw [if_neg (UInt64.not_lt.2 hroom), if_pos ((sl.le_remaining_iff moves.inside).1 hroom)]
          exact .ok rfl moves
        · rw [if_pos (UInt64.not_le.1 hroom), if_neg (mt (sl.le_remaining_iff moves.inside).2 hroom)]
          exact .error hback
  · rw [if_neg hw, Step.bind_of_error (prefixNumber_of_width hw)]
    exact .error (.refl hc)

theorem lengthBound_follows (b : LengthBound) :
    sl.Follows (sl.lengthPrefix (UInt64.ofNat b.width) (UInt64.ofNat b.max)) (fun a n => a.toNat = n)
      (Decoder.length b.width b.max) := by
  have hcapacity : Bytes.capacity b.width ≤ Bytes.capacity 3 := Bytes.capacity_le b.width_mem.2
  have hmax : b.max < UInt64.size :=
    Nat.lt_of_lt_of_le b.max_lt (Nat.le_trans hcapacity (by decide))
  have hwidth : b.width < UInt64.size := Nat.lt_of_le_of_lt b.width_mem.2 (by decide)
  have h : sl.Follows (sl.lengthPrefix (UInt64.ofNat b.width) (UInt64.ofNat b.max)) _ _ :=
    lengthPrefix_follows _ _
  rwa [UInt64.toNat_ofNat_of_lt' hwidth, UInt64.toNat_ofNat_of_lt' hmax] at h

end Prefix

/-! ### Formats -/

section Formats

variable {sl} {c : SliceCursor}

/-- The text check looks at `n` bytes without a check of its own, which is right where they are left. -/
theorem utf8_followsAt {n : UInt64} (hc : c.position ≤ sl.length) (h : n ≤ sl.remaining c) :
    sl.FollowsAt c (sl.utf8 n) (· = ·) (Decoder.utf8 n.toNat) := by
  obtain ⟨hsum, -⟩ := sl.toNat_position_add hc h
  obtain ⟨hadvance, htake⟩ := cursorAt_advance hc h
  have hle : c.position ≤ c.position + n := UInt64.le_iff_toNat_le.2 (by omega)
  have hlen : c.position + n - c.position = n := by
    rw [← UInt64.toNat_inj, UInt64.toNat_sub_of_le _ _ hle, hsum, Nat.add_sub_cancel_left]
  obtain ⟨valid, hscan, hpeeks⟩ := sl.isUtf8_scans hle (i := 0) (UInt64.le_iff_toNat_le.2 (Nat.zero_le _))
  obtain rfl : Utf8.isValid (sl.between c.position.toNat (c.position + n).toNat) = valid := by
    simpa [Utf8.scan_eq] using hscan
  obtain ⟨seen, hrun, hseen⟩ := hpeeks c
  rw [hlen] at hrun
  unfold FollowsAt utf8 Decoder.utf8 Decoder.take
  rw [Step.get_bind, Step.bind_of_ok hrun, htake, if_pos ((sl.le_remaining_iff hc).1 h), hadvance]
  by_cases hvalid : Utf8.isValid (sl.between c.position.toNat (c.position + n).toNat) = true
  · obtain ⟨seen', hrun', hseen'⟩ := consume_of_le (c := ⟨c.position, seen ++ c.inspected⟩) h
      (copy_next_peeks hsum)
    rw [if_pos hvalid, if_pos hvalid, take, hrun', ← List.append_assoc]
    exact .ok rfl (moves_advance hc h (List.forall_mem_append.2 ⟨hseen', hseen⟩))
  · rw [if_neg hvalid, if_neg hvalid]
    have hmoves := moves_advance hc h hseen
    exact .error ⟨UInt64.le_refl _, hc, (hmoves.mono hmoves.inside).inspected⟩

theorem items_follows {α : Type} {item : SliceReader α} {decode : Decoder α}
    (h : sl.Follows item (· = ·) decode) (n : Nat) (before : List α) :
    sl.Follows (SliceReader.items item n before) (· = ·) (Decoder.items decode n before) := by
  induction n generalizing before with
  | zero => exact follows_pure rfl
  | succ n ih =>
    refine h.bind ?_
    rintro a _ rfl
    exact ih (a :: before)

theorem fixed_follows (n : UInt64) :
    sl.Follows (sl.readInto n >>= fun bs => pure (FixedBytes.padded n.toNat bs)) (· = ·)
      (Decoder.take n.toNat >>= fun bs => pure (FixedBytes.padded n.toNat bs)) := by
  refine (readInto_follows n).map ?_
  rintro a bs ⟨rfl, -⟩
  rfl

/-- **Reading a value from a slice is decoding it.** -/
theorem decode_follows (f : WireFormat) : sl.Follows (sl.decode f) (· = ·) f.decode := by
  induction f with
  | u8 => exact u8_follows
  | u16 => exact u16_follows
  | u24 =>
    refine u24_follows.bind ?_
    rintro a v rfl
    exact follows_ofExcept _
  | u32 =>
    refine u32_follows.map_right ?_
    rintro a v rfl
    rfl
  | u64 => exact u64_follows
  | f32 => exact f32_follows
  | bool => exact boolean_follows
  | u256 => exact fixed_follows 32
  | signature => exact fixed_follows 64
  | bytes b =>
    refine (lengthBound_follows b).bind ?_
    rintro n _ rfl
    refine (take_follows n).bind ?_
    rintro bs _ ⟨rfl, -⟩
    exact follows_ofExcept _
  | text b =>
    intro c hc
    refine (lengthBound_follows b c hc).bind ?_
    rintro n _ c₁ - hlength rfl hc₁
    have hroom : n ≤ sl.remaining c₁ := by
      rw [sl.le_remaining_iff hc₁, Cursor.has_iff]
      exact (Decoder.length_eq_ok_iff.1 hlength).2.2
    refine (utf8_followsAt hc₁ hroom).bind ?_
    rintro bs _ c₂ - - rfl hc₂
    exact follows_ofExcept _ c₂ hc₂
  | sequence item b ih =>
    refine (lengthBound_follows b).bind ?_
    rintro n _ rfl
    refine (items_follows ih n.toNat []).bind ?_
    rintro items _ rfl
    exact follows_ofExcept _

/-- **Reading a list of fields from a slice is decoding it.** -/
theorem decodeFields_follows (fs : List WireFormat) :
    sl.Follows (sl.decodeFields fs) (· = ·) (Fields.decode fs) := by
  induction fs with
  | nil => exact follows_pure rfl
  | cons f fs ih =>
    refine (decode_follows f).bind ?_
    rintro v _ rfl
    refine ih.map ?_
    rintro vs _ rfl
    rfl

/-- **A call does what its decoder does.** -/
theorem perform_follows (call : Call) : sl.Follows (sl.perform call) (· = ·) call.decoder := by
  cases call with
  | u8 => exact u8_follows
  | u16 => exact u16_follows
  | u24 => exact u24_follows.map_right fun _ _ h => h
  | u32 => exact u32_follows.map_right fun _ _ h => h
  | u64 => exact u64_follows
  | f32 => exact f32_follows
  | boolean => exact boolean_follows
  | take n => exact (take_follows n).mono fun _ _ h => h.1
  | readInto n => exact (readInto_follows n).mono fun _ _ h => h.1
  | skip n => exact skip_follows n
  | lengthPrefix width max =>
    refine (lengthPrefix_follows width max).map_right ?_
    rintro a n rfl
    exact UInt64.ofNat_toNat.symm
  | expectEnd => exact expectEnd_follows
  | value f => exact decode_follows f
  | fields fs => exact decodeFields_follows fs

end Formats

end Slice

end Stratum
