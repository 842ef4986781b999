import Stratum.Proofs.SliceDecoding

/-!
# The cursor stays inside its slice

A program makes any calls on a cursor over memory, with any words for lengths and numbers of bytes, and goes on
after calls that failed. After every one of them the position is no less than before and not over the length, and
every place that was looked at lies in the slice (`Slice.cursor_stays_inside`).

Each call does what its decoder does at the same place of a byte string (`Slice.perform_follows`), so the rest is
about decoders. Those behind primitive calls fail without moving (`Call.decoder_stays`). What a decoder gives,
and where it stops, is decided by the bytes that it passes (`Decoder.Local`): for formats because each value is
read from the bytes that write it, and for a length prefix because its digits are. Apart from the check that
nothing is left, a call depends on more only in that a length is refused for the number of bytes behind it, so a
success is repeated where no fewer bytes are left (`Decoder.Repeats`).
-/

namespace Stratum

/-! ### What a decoder depends on -/

theorem Cursor.Passes.unique {c c' : Cursor} {a b : Bytes} (h : c.Passes a c') (h' : c.Passes b c') :
    a = b :=
  List.append_cancel_right (h.rest_eq.symm.trans h'.rest_eq)

theorem Cursor.Passes.remaining_eq {c c' : Cursor} {bs : Bytes} (h : c.Passes bs c') :
    c.remaining = bs.length + c'.remaining := by
  rw [Cursor.remaining, h.rest_eq, List.length_append, Cursor.remaining]

namespace Decoder

variable {α β : Type} {d : Decoder α}

/-- Where the bytes that a success passed come again, another success gives the same value, and stops behind
them. -/
def Local (d : Decoder α) : Prop :=
  ∀ ⦃c c' k k' l : Cursor⦄ ⦃bs : Bytes⦄ ⦃v w : α⦄, d c = .ok v c' → c.Passes bs c' → k.Passes bs k' →
    d k = .ok w l → w = v ∧ l = k'

/-- Where the bytes that a success passed come again, and no fewer bytes are left, it is repeated. -/
def Repeats (d : Decoder α) : Prop :=
  ∀ ⦃c c' k k' : Cursor⦄ ⦃bs : Bytes⦄ ⦃v : α⦄, d c = .ok v c' → c.Passes bs c' → k.Passes bs k' →
    c.remaining ≤ k.remaining → d k = .ok v k'

section Reads

variable {P : α → Prop} {w : α → Bytes}

theorem Reads.eq_ok (h : d.Reads P w) {c c' k k' : Cursor} {bs : Bytes} {v : α} (hv : d c = .ok v c')
    (hc : c.Passes bs c') (hk : k.Passes bs k') : d k = .ok v k' := by
  obtain ⟨hP, hpass⟩ := (h c v c').1 hv
  obtain rfl := hpass.unique hc
  exact (h k v k').2 ⟨hP, hk⟩

theorem Reads.toLocal (h : d.Reads P w) : d.Local := by
  intro c c' k k' l bs v u hv hc hk hu
  have hsame := h.eq_ok hv hc hk
  rw [hu] at hsame
  cases hsame
  exact ⟨rfl, rfl⟩

theorem Reads.repeats (h : d.Reads P w) : d.Repeats := by
  intro c c' k k' bs v hv hc hk _
  exact h.eq_ok hv hc hk

end Reads

theorem Local.map (h : d.Local) (g : α → β) : (d >>= fun a => pure (g a)).Local := by
  intro c c' k k' l bs v w hv hc hk hw
  obtain ⟨a, c₁, ha, hpure⟩ := Step.bind_eq_ok_iff.1 hv
  obtain ⟨b, k₁, hb, hpure'⟩ := Step.bind_eq_ok_iff.1 hw
  cases hpure
  cases hpure'
  obtain ⟨rfl, rfl⟩ := h ha hc hk hb
  exact ⟨rfl, rfl⟩

theorem Repeats.map (h : d.Repeats) (g : α → β) : (d >>= fun a => pure (g a)).Repeats := by
  intro c c' k k' bs v hv hc hk hle
  obtain ⟨a, c₁, ha, hpure⟩ := Step.bind_eq_ok_iff.1 hv
  cases hpure
  rw [Step.bind_of_ok (h ha hc hk hle)]
  rfl

theorem length_eq_ok_iff_number {width max n : Nat} {c c' : Cursor} :
    length width max c = .ok n c' ↔
      (1 ≤ width ∧ width ≤ 3) ∧ number width c = .ok n c' ∧ n ≤ max ∧ n ≤ c'.remaining := by
  unfold length
  by_cases hw : 1 ≤ width ∧ width ≤ 3
  · rw [if_pos hw]
    cases hn : number width c with
    | error e c₁ => simp
    | ok m c₁ =>
      dsimp only
      by_cases hmax : max < m
      · rw [if_pos hmax]
        refine iff_of_false (by simp) ?_
        rintro ⟨-, h, hle, -⟩
        cases h
        omega
      · rw [if_neg hmax]
        by_cases hhas : c₁.has m = true
        · rw [if_pos hhas]
          constructor
          · intro h
            cases h
            exact ⟨hw, rfl, Nat.le_of_not_lt hmax, Cursor.has_iff.1 hhas⟩
          · exact fun h => h.2.1
        · rw [if_neg hhas]
          refine iff_of_false (by simp) ?_
          rintro ⟨-, h, -, hle⟩
          cases h
          exact hhas (Cursor.has_iff.2 hle)
  · rw [if_neg hw]
    exact iff_of_false (by simp) fun h => hw h.1

theorem length_local (width max : Nat) : (length width max).Local := by
  intro c c' k k' l bs v w hv hc hk hw
  obtain ⟨-, hnumber, -, -⟩ := length_eq_ok_iff_number.1 hv
  obtain ⟨-, hnumber', -, -⟩ := length_eq_ok_iff_number.1 hw
  exact (number_reads width).toLocal hnumber hc hk hnumber'

theorem length_repeats (width max : Nat) : (length width max).Repeats := by
  intro c c' k k' bs v hv hc hk hle
  obtain ⟨hwidth, hnumber, hmax, hroom⟩ := length_eq_ok_iff_number.1 hv
  rw [hc.remaining_eq, hk.remaining_eq] at hle
  refine length_eq_ok_iff_number.2 ⟨hwidth, ?_, hmax, by omega⟩
  exact (number_reads width).eq_ok hnumber hc hk

theorem expectEnd_eq_ok {c c' : Cursor} {v : Unit} (h : expectEnd c = .ok v c') : c' = c := by
  unfold expectEnd at h
  split at h
  · cases h
    rfl
  · cases h

theorem expectEnd_local : expectEnd.Local := by
  intro c c' k k' l bs v w hv hc hk hw
  obtain rfl := expectEnd_eq_ok hv
  obtain rfl := expectEnd_eq_ok hw
  obtain rfl := hc.unique (Cursor.passes_nil_iff.2 rfl)
  exact ⟨rfl, (Cursor.passes_nil_iff.1 hk).symm⟩

end Decoder

/-! ### The decoders of calls -/

namespace Call

theorem decoder_stays (call : Call) (h : call.isPrimitive = true) : call.decoder.Stays := by
  cases call with
  | u8 => exact (Decoder.number_stays 1).map _
  | u16 => exact (Decoder.number_stays 2).map _
  | u24 => exact (Decoder.number_stays 3).map _
  | u32 | f32 => exact (Decoder.number_stays 4).map _
  | u64 => exact (Decoder.number_stays 8).map _
  | boolean => exact Decoder.bool_stays
  | take n | readInto n => exact Decoder.take_stays n.toNat
  | skip n => exact (Decoder.take_stays n.toNat).map _
  | lengthPrefix width max => exact (Decoder.length_stays width.toNat max.toNat).map _
  | expectEnd => exact Decoder.expectEnd_stays
  | value f | fields fs => cases h

theorem decoder_local (call : Call) : call.decoder.Local := by
  cases call with
  | u8 => exact WireFormat.u8.decode_reads.toLocal
  | u16 => exact WireFormat.u16.decode_reads.toLocal
  | u24 => exact (Decoder.number_reads 3).toLocal.map _
  | u32 => exact WireFormat.u32.decode_reads.toLocal
  | u64 => exact WireFormat.u64.decode_reads.toLocal
  | f32 => exact WireFormat.f32.decode_reads.toLocal
  | boolean => exact Decoder.bool_reads.toLocal
  | take n | readInto n => exact (Decoder.take_reads n.toNat).toLocal
  | skip n => exact (Decoder.take_reads n.toNat).toLocal.map _
  | lengthPrefix width max => exact (Decoder.length_local width.toNat max.toNat).map _
  | expectEnd => exact Decoder.expectEnd_local
  | value f => exact f.decode_reads.toLocal
  | fields fs => exact (Fields.decode_reads fs).toLocal

theorem decoder_repeats (call : Call) (h : call ≠ .expectEnd) : call.decoder.Repeats := by
  cases call with
  | u8 => exact WireFormat.u8.decode_reads.repeats
  | u16 => exact WireFormat.u16.decode_reads.repeats
  | u24 => exact (Decoder.number_reads 3).repeats.map _
  | u32 => exact WireFormat.u32.decode_reads.repeats
  | u64 => exact WireFormat.u64.decode_reads.repeats
  | f32 => exact WireFormat.f32.decode_reads.repeats
  | boolean => exact Decoder.bool_reads.repeats
  | take n | readInto n => exact (Decoder.take_reads n.toNat).repeats
  | skip n => exact (Decoder.take_reads n.toNat).repeats.map _
  | lengthPrefix width max => exact (Decoder.length_repeats width.toNat max.toNat).map _
  | expectEnd => exact absurd rfl h
  | value f => exact f.decode_reads.repeats
  | fields fs => exact (Fields.decode_reads fs).repeats

end Call

/-! ### Calls -/

namespace Slice

/-- In the slice `other` at `k` come the `n` bytes that come in `sl` at `c`. -/
structure SameNext (sl : Slice) (c : SliceCursor) (other : Slice) (k : SliceCursor) (n : UInt64) : Prop where
  /-- The second cursor is inside its slice. -/
  inside : k.position ≤ other.length
  /-- So many bytes are left behind it. -/
  room : n ≤ other.remaining k
  /-- They are the same bytes. -/
  eq : ∀ i < n, other.memory (k.position + i) = sl.memory (c.position + i)

variable (sl : Slice)

/-- What holds of a call at a cursor inside the slice, whatever comes of it. -/
structure KeepsInside (c : SliceCursor) (call : Call) : Prop where
  /-- The position does not decrease and stays inside the slice, and so does what is looked at. -/
  moves : sl.Moves c (sl.after c call) sl.length
  /-- A call that succeeds looks only at bytes that it passes. -/
  passes : ∀ {v c'}, sl.perform call c = .ok v c' → sl.Moves c c' c'.position
  /-- A primitive call that fails leaves the position exactly where it was. -/
  refuses : ∀ {e c'}, call.isPrimitive = true → sl.perform call c = .error e c' → c'.position = c.position
  /-- The call does what its decoder does at this place of the byte string, which knows nothing of the memory around
  the slice. -/
  decodes : sl.FollowsAt c (sl.perform call) (· = ·) call.decoder
  /-- Where the bytes that a success passed come again, in this slice or another one, a success gives the same
  value and moves as far. -/
  depends : ∀ {v c' other k w k'}, sl.perform call c = .ok v c' →
    sl.SameNext c other k (c'.position - c.position) → other.perform call k = .ok w k' →
    w = v ∧ k'.position = k.position + (c'.position - c.position)
  /-- And it does succeed if no fewer bytes are left. -/
  repeats : ∀ {v c' other k}, sl.perform call c = .ok v c' →
    sl.SameNext c other k (c'.position - c.position) → call ≠ .expectEnd →
    sl.remaining c ≤ other.remaining k → ∃ k', other.perform call k = .ok v k'

section Calls

variable {sl} {other : Slice} {c k c' k' : SliceCursor} {call : Call} {bound : UInt64}

theorem SameNext.between_eq {n : UInt64} (h : sl.SameNext c other k n) (hc : c.position ≤ sl.length)
    (hn : n ≤ sl.remaining c) :
    other.between k.position.toNat (k.position + n).toNat = sl.between c.position.toNat (c.position + n).toNat := by
  obtain ⟨hk, -⟩ := other.toNat_position_add h.inside h.room
  obtain ⟨hc', -⟩ := sl.toNat_position_add hc hn
  rw [hk, hc']
  refine List.ext_getElem (by simp) fun i hi _ => ?_
  have hin : i < n.toNat := by simpa using hi
  have hword : (UInt64.ofNat i).toNat = i := UInt64.toNat_ofNat_of_lt' (Nat.lt_trans hin n.toNat_lt)
  have heq := h.eq (UInt64.ofNat i) (by rw [UInt64.lt_iff_toNat_lt, hword]; exact hin)
  simpa [between, UInt64.ofNat_add] using heq

/-- The two places of the bytes that a success passes, and that come again, as places of byte strings. -/
theorem SameNext.passes (h : sl.SameNext c other k (c'.position - c.position)) (hmoves : sl.Moves c c' bound) :
    (sl.cursorAt c.position).Passes (sl.between c.position.toNat c'.position.toNat) (sl.cursorAt c'.position) ∧
      (other.cursorAt k.position).Passes (sl.between c.position.toNat c'.position.toNat)
        (other.cursorAt (k.position + (c'.position - c.position))) := by
  have hc : c.position ≤ sl.length := UInt64.le_trans hmoves.forward hmoves.inside
  have hback : c.position + (c'.position - c.position) = c'.position := by
    rw [UInt64.add_comm, UInt64.sub_add_cancel]
  have hn : c'.position - c.position ≤ sl.remaining c := by
    rw [UInt64.le_iff_toNat_le, remaining, UInt64.toNat_sub_of_le _ _ hmoves.forward, UInt64.toNat_sub_of_le _ _ hc]
    exact Nat.sub_le_sub_right (UInt64.le_iff_toNat_le.1 hmoves.inside) _
  obtain ⟨hsum, hin⟩ := other.toNat_position_add h.inside h.room
  have hbytes := h.between_eq hc hn
  rw [hback] at hbytes
  rw [← hbytes]
  refine ⟨hbytes ▸ sl.passes_between hmoves.forward hmoves.inside, other.passes_between ?_ ?_⟩
  · rw [UInt64.le_iff_toNat_le, hsum]
    exact Nat.le_add_right _ _
  · rw [UInt64.le_iff_toNat_le, hsum]
    exact hin

/-- What comes of a call, beside what comes of its decoder. -/
theorem perform_eq_ok (hc : c.position ≤ sl.length) {v : call.Value} (h : sl.perform call c = .ok v c') :
    call.decoder (sl.cursorAt c.position) = .ok v (sl.cursorAt c'.position) ∧ sl.Moves c c' c'.position := by
  have hagrees : sl.FollowsAt c (sl.perform call) _ _ := perform_follows call c hc
  unfold FollowsAt at hagrees
  rw [h] at hagrees
  generalize call.decoder (sl.cursorAt c.position) = r at hagrees
  cases hagrees with
  | ok related moves =>
    subst related
    exact ⟨rfl, moves⟩

theorem perform_eq_error (hc : c.position ≤ sl.length) {e : CodecFault} (h : sl.perform call c = .error e c') :
    call.decoder (sl.cursorAt c.position) = .error e (sl.cursorAt c'.position) ∧ sl.Moves c c' sl.length := by
  have hagrees : sl.FollowsAt c (sl.perform call) _ _ := perform_follows call c hc
  unfold FollowsAt at hagrees
  rw [h] at hagrees
  generalize call.decoder (sl.cursorAt c.position) = r at hagrees
  cases hagrees with
  | error moves => exact ⟨rfl, moves⟩

/-- A call succeeds where its decoder does. -/
theorem perform_of_decoder (hc : c.position ≤ sl.length) {v : call.Value} {l : Cursor}
    (h : call.decoder (sl.cursorAt c.position) = .ok v l) : ∃ c', sl.perform call c = .ok v c' := by
  cases hperform : sl.perform call c with
  | ok w c' =>
    have hdecoder := (perform_eq_ok hc hperform).1
    rw [h] at hdecoder
    cases hdecoder
    exact ⟨c', rfl⟩
  | error e c' =>
    have hdecoder := (perform_eq_error hc hperform).1
    rw [h] at hdecoder
    cases hdecoder

theorem after_moves (hc : c.position ≤ sl.length) (call : Call) : sl.Moves c (sl.after c call) sl.length := by
  unfold after
  cases h : sl.perform call c with
  | ok v c' =>
    have hmoves := (perform_eq_ok hc h).2
    exact hmoves.mono hmoves.inside
  | error e c' => exact (perform_eq_error hc h).2

/-- **A call keeps inside the slice.** -/
theorem keepsInside (hc : c.position ≤ sl.length) (call : Call) : sl.KeepsInside c call where
  moves := after_moves hc call
  passes h := (perform_eq_ok hc h).2
  refuses := by
    intro e c' hprimitive h
    obtain ⟨hdecoder, -⟩ := perform_eq_error hc h
    exact sl.cursorAt_inj (call.decoder_stays hprimitive _ _ _ hdecoder)
  decodes := perform_follows call c hc
  depends := by
    intro v c' other k w k' h hnext hother
    obtain ⟨hdecoder, hmoves⟩ := perform_eq_ok hc h
    obtain ⟨hdecoder', -⟩ := perform_eq_ok hnext.inside hother
    obtain ⟨hpass, hpass'⟩ := hnext.passes hmoves
    obtain ⟨hvalue, hplace⟩ := call.decoder_local hdecoder hpass hpass' hdecoder'
    exact ⟨hvalue, other.cursorAt_inj hplace⟩
  repeats := by
    intro v c' other k h hnext hne hroom
    obtain ⟨hdecoder, hmoves⟩ := perform_eq_ok hc h
    obtain ⟨hpass, hpass'⟩ := hnext.passes hmoves
    refine perform_of_decoder hnext.inside (call.decoder_repeats hne hdecoder hpass hpass' ?_)
    rw [← sl.toNat_remaining hc, ← other.toNat_remaining hnext.inside]
    exact UInt64.le_iff_toNat_le.1 hroom

/-- And so does a run: by induction over the calls. -/
theorem foldl_moves (hc : c.position ≤ sl.length) (calls : List Call) :
    sl.Moves c (calls.foldl sl.after c) sl.length := by
  induction calls generalizing c with
  | nil => exact .refl hc
  | cons call calls ih =>
    have hmoves := after_moves hc call
    exact hmoves.trans (ih hmoves.inside)

end Calls

/-- **The cursor stays inside its slice on every path.** Whatever calls were made on it, and whichever of them
failed, the position is not over the length, no call moves it back, and no byte behind the slice was looked at.
The next call, whatever it is, keeps to this: it fails where it was if it is a primitive one, and on its way if
it is not; and if it succeeds, only the bytes between the old position and the new one decide what it gives and
where it stops. -/
theorem cursor_stays_inside (calls : List Call) :
    (sl.run calls).position ≤ sl.length ∧ (∀ i ∈ (sl.run calls).inspected, i < sl.length) ∧
      (∀ more, (sl.run calls).position ≤ (sl.run (calls ++ more)).position) ∧
      ∀ call, sl.KeepsInside (sl.run calls) call := by
  have hstart : SliceCursor.start.position ≤ sl.length := UInt64.le_iff_toNat_le.2 (Nat.zero_le _)
  have hmoves : sl.Moves .start (sl.run calls) sl.length := foldl_moves hstart calls
  refine ⟨hmoves.inside, ?_, ?_, ?_⟩
  · obtain ⟨seen, hseen, hin⟩ := hmoves.inspected
    intro i hi
    rw [hseen, SliceCursor.start, List.append_nil] at hi
    exact (hin i hi).2
  · intro more
    rw [run, run, List.foldl_append]
    exact (foldl_moves hmoves.inside more).forward
  · exact keepsInside hmoves.inside

/-- Three bytes, with other bytes behind them. -/
def sample : Slice := ⟨fun place => if place = 0 then 2 else 7, 3⟩

/-- The first byte is no truth value, and stays where it is, as does all if too much is asked for. As a length the byte
is over a bound of 1, and given back; under a greater bound it is passed, with the two bytes that it counts, which
are then a byte string wherever they come again. -/
theorem cursor_stays_inside_on_sample :
    sample.run [.boolean, .take 0xFFFFFFFFFFFFFFFF] = ⟨0, [0]⟩ ∧ (∀ i ∈ [0], i < sample.length) ∧
      (∃ c', sample.perform (.lengthPrefix 1 1) ⟨0, [0]⟩ = .error .lengthOverBound c' ∧ c'.position = 0) ∧
      ∃ v : ByteString .upTo32, v.toBytes = [7, 7] ∧
        sample.perform (.value (.bytes .upTo32)) ⟨0, [0]⟩ = .ok v ⟨3, [2, 1, 0, 0]⟩ ∧
        ∀ other k w k', sample.SameNext ⟨0, [0]⟩ other k 3 →
          other.perform (.value (.bytes .upTo32)) k = .ok w k' → w = v ∧ k'.position = k.position + 3 := by
  obtain ⟨-, hinspected, -, hcall⟩ := cursor_stays_inside sample [.boolean, .take 0xFFFFFFFFFFFFFFFF]
  have hrun : sample.run [.boolean, .take 0xFFFFFFFFFFFFFFFF] = ⟨0, [0]⟩ := by decide
  rw [hrun] at hinspected hcall
  have hrefused : sample.perform (.lengthPrefix 1 1) ⟨0, [0]⟩ = .error .lengthOverBound ⟨0, [0, 0]⟩ := rfl
  have hread : sample.perform (.value (.bytes .upTo32)) ⟨0, [0]⟩ =
      .ok ⟨[7, 7], by decide⟩ ⟨3, [2, 1, 0, 0]⟩ := rfl
  refine ⟨hrun, hinspected, ⟨_, hrefused, (hcall _).refuses rfl hrefused⟩, _, rfl, hread, ?_⟩
  intro other k w k' hnext hother
  exact (hcall _).depends hread hnext hother

end Slice

end Stratum
