import Stratum.Proofs.MessageFrames

/-!
# Payloads that are cut or continued

A payload says itself where it ends. This module shows what a reader makes of one that
is cut somewhere, or that goes on behind its end:

* `WireFormat.decode_noticesCuts`: wherever the bytes of a value are cut, in a number, in
  a length, in a text or between two items of a sequence, the decoder says that input is
  missing, and nothing else;
* `Fields.decode_noticesCuts`: so it is with the fields of a message, since each is
  decoded where the one before it ends;
* **`payload_neither_cut_nor_continued`**: for every type of messages, a payload that is
  accepted is refused as truncated when anything is cut off, and for its trailing bytes
  when anything is added. So no accepted payload of a type is in front of another.

What makes this work is the order of the checks. The length of a text is held against the
bytes that are left before the text is looked at, so that a text that is cut is never taken
for one that is not UTF-8; and a sequence is not known to be cut before its items are read.
-/

namespace Stratum

/-! ### Cuts -/

/-- From the place on the bytes begin as given ones do, but are not all there. -/
def Cursor.CutIn (c : Cursor) (bs : Bytes) : Prop := ∃ lost, lost ≠ [] ∧ bs = c.rest ++ lost

namespace Cursor

variable {c : Cursor} {a b bs : Bytes}

theorem CutIn.length_lt (h : c.CutIn bs) : c.rest.length < bs.length := by
  obtain ⟨lost, hlost, rfl⟩ := h
  have hpos := List.length_pos_iff.2 hlost
  rw [List.length_append]
  omega

theorem not_cutIn_nil : ¬ c.CutIn [] := fun h => Nat.not_lt_zero _ h.length_lt

/-- A cut is in the first of two parts, or behind it in the second. -/
theorem CutIn.of_append (h : c.CutIn (a ++ b)) : c.CutIn a ∨ ∃ c', c.Passes a c' ∧ c'.CutIn b := by
  obtain ⟨lost, hlost, heq⟩ := h
  obtain ⟨rest, hrest, hb⟩ | ⟨rest, ha, hlost'⟩ := List.append_eq_append_iff.1 heq
  · exact .inr ⟨⟨c.position + a.length, rest⟩, ⟨hrest, rfl⟩, lost, hlost, hb⟩
  · cases rest with
    | nil =>
      -- The cut is between the two.
      rw [List.append_nil] at ha
      rw [List.nil_append] at hlost'
      subst ha hlost'
      exact .inr ⟨⟨c.position + c.rest.length, []⟩, ⟨(List.append_nil _).symm, rfl⟩, lost, hlost, rfl⟩
    | cons x rest => exact .inl ⟨x :: rest, List.cons_ne_nil _ _, ha⟩

theorem cutIn_of_isPrefix {part : Bytes} (h : part <+: bs) (hne : part ≠ bs) : (ofBytes part).CutIn bs := by
  obtain ⟨lost, rfl⟩ := h
  refine ⟨lost, fun hnil => hne ?_, rfl⟩
  rw [hnil, List.append_nil]

end Cursor

/-! ### Decoders that notice -/

namespace Decoder

variable {α β : Type}

/-- The decoder says that input is missing. -/
def Lacks (d : Decoder α) (c : Cursor) : Prop := ∃ cause c', d c = .error cause c' ∧ cause.kind = .truncated

/-- Wherever the bytes that `w` writes for a value are cut, the decoder says that input is missing. -/
def NoticesCuts (d : Decoder α) (w : α → Bytes) : Prop := ∀ v c, c.CutIn (w v) → d.Lacks c

section

variable {d : Decoder α} {f : α → Decoder β} {c c₁ : Cursor}

/-- What lacks input at the first step lacks input. -/
theorem Lacks.bind (h : d.Lacks c) : (d >>= f).Lacks c := by
  obtain ⟨cause, c', hd, hkind⟩ := h
  exact ⟨cause, c', Step.bind_of_error hd, hkind⟩

/-- And so does what lacks it at the second. -/
theorem Lacks.behind {a : α} (hd : d c = .ok a c₁) (h : (f a).Lacks c₁) : (d >>= f).Lacks c := by
  obtain ⟨cause, c', hf, hkind⟩ := h
  exact ⟨cause, c', by rw [Step.bind_of_ok hd, hf], hkind⟩

end

theorem take_of_short {c : Cursor} {n : Nat} (h : c.rest.length < n) : take n c = .error .truncated c := by
  have hhas : ¬ c.has n = true := fun hhas => Nat.not_le.2 h (Cursor.has_iff.1 hhas)
  exact if_neg hhas

theorem number_of_short {c : Cursor} {n : Nat} (h : c.rest.length < n) : number n c = .error .truncated c :=
  Step.bind_of_error (take_of_short h)

/-- A number that is cut. -/
theorem number_lacks {c : Cursor} {n v : Nat} {f : Nat → Decoder α} (h : c.CutIn (Bytes.ofNatLE n v)) :
    (number n >>= f).Lacks c := by
  have hlt := h.length_lt
  rw [Bytes.length_ofNatLE] at hlt
  exact Lacks.bind ⟨.truncated, c, number_of_short hlt, rfl⟩

/-- A string of fixed length that is cut. -/
theorem fixed_lacks {c : Cursor} {n : Nat} {v : FixedBytes n} {f : Bytes → Decoder α} (h : c.CutIn v.toBytes) :
    (take n >>= f).Lacks c := by
  have hlt := h.length_lt
  rw [v.length_eq] at hlt
  exact Lacks.bind ⟨.truncated, c, take_of_short hlt, rfl⟩

theorem bool_noticesCuts : bool.NoticesCuts (fun b => [if b then 1 else 0]) := by
  intro v c h
  have hnil : c.rest = [] := List.length_eq_zero_iff.1 (Nat.lt_one_iff.1 h.length_lt)
  refine ⟨.truncated, c, ?_, rfl⟩
  rw [bool, hnil]

/-- A length prefix that is cut. -/
theorem length_of_short {b : LengthBound} {c : Cursor} (h : c.rest.length < b.width) :
    length b.width b.max c = .error .truncated c := by
  rw [length, if_pos b.width_mem, number_of_short h]

/-- A length prefix that is whole, before fewer bytes than it says. -/
theorem length_of_missing {b : LengthBound} {c c₁ : Cursor} {n : Nat} (hmax : n ≤ b.max)
    (hpass : c.Passes (Bytes.ofNatLE b.width n) c₁) (hmissing : c₁.rest.length < n) :
    length b.width b.max c = .error .lengthOverInput c := by
  have hnumber : number b.width c = .ok n c₁ :=
    (number_reads b.width c n c₁).2 ⟨Nat.lt_of_le_of_lt hmax b.max_lt, hpass⟩
  have hhas : ¬ c₁.has n = true := fun hhas => Nat.not_le.2 hmissing (Cursor.has_iff.1 hhas)
  rw [length, if_pos b.width_mem, hnumber]
  dsimp only
  rw [if_neg (Nat.not_lt.2 hmax), if_neg hhas]

/-- What follows a length prefix has to notice only those cuts that leave as many bytes as the prefix says. -/
theorem NoticesCuts.behindLength {b : LengthBound} {k : Nat → Decoder α} (size : α → Nat) {w : α → Bytes}
    (hmax : ∀ v, size v ≤ b.max)
    (hk : ∀ v c, size v ≤ c.rest.length → c.CutIn (w v) → (k (size v)).Lacks c) :
    (length b.width b.max >>= k).NoticesCuts (fun v => Bytes.ofNatLE b.width (size v) ++ w v) := by
  intro v c h
  obtain hprefix | ⟨c₁, hpass, hcut⟩ := h.of_append
  · have hlt := hprefix.length_lt
    rw [Bytes.length_ofNatLE] at hlt
    exact Lacks.bind ⟨.truncated, c, length_of_short hlt, rfl⟩
  · by_cases hfits : size v ≤ c₁.rest.length
    · exact Lacks.behind (length_eq_ok_iff.2 ⟨hmax v, hpass, hfits⟩) (hk v c₁ hfits hcut)
    · exact Lacks.bind ⟨.lengthOverInput, c, length_of_missing (hmax v) hpass (Nat.lt_of_not_le hfits), rfl⟩

/-- A string behind its length is never reached when it is cut: the length says so before. -/
theorem NoticesCuts.stringBehindLength {b : LengthBound} {k : Nat → Decoder α} {w : α → Bytes}
    (hmax : ∀ v, (w v).length ≤ b.max) :
    (length b.width b.max >>= k).NoticesCuts (fun v => Bytes.ofNatLE b.width (w v).length ++ w v) :=
  behindLength (fun v => (w v).length) hmax fun _ _ hfits hcut => absurd hcut.length_lt (Nat.not_lt.2 hfits)

/-- Items that are cut: those before the cut are read, and the one in which it is says so. -/
theorem items_lacks {item : Decoder α} {w : α → Bytes} (hreads : item.Reads (fun _ => True) w)
    (hcuts : item.NoticesCuts w) (vs : List α) {before : List α} {c : Cursor} (h : c.CutIn (vs.flatMap w)) :
    (items item vs.length before).Lacks c := by
  induction vs generalizing before c with
  | nil => exact absurd h Cursor.not_cutIn_nil
  | cons v vs ih =>
    rw [List.flatMap_cons] at h
    rw [List.length_cons, items]
    obtain hfirst | ⟨c₁, hpass, hlater⟩ := h.of_append
    · exact (hcuts v c hfirst).bind
    · exact Lacks.behind ((hreads c v c₁).2 ⟨trivial, hpass⟩) (ih hlater)

/-- One decoder after another. -/
theorem NoticesCuts.pair {d : Decoder α} {d' : Decoder β} {w : α → Bytes} {w' : β → Bytes}
    (hreads : d.Reads (fun _ => True) w) (hd : d.NoticesCuts w) (hd' : d'.NoticesCuts w') :
    (d >>= fun a => d' >>= fun b => pure (a, b)).NoticesCuts (fun p => w p.1 ++ w' p.2) := by
  rintro ⟨v, v'⟩ c h
  obtain hfirst | ⟨c₁, hpass, hlater⟩ := h.of_append
  · exact (hd v c hfirst).bind
  · exact Lacks.behind ((hreads c v c₁).2 ⟨trivial, hpass⟩) (hd' v' c₁ hlater).bind

end Decoder

/-- **Wherever the bytes of a value are cut, its decoder says that input is missing.** -/
theorem WireFormat.decode_noticesCuts (f : WireFormat) : f.decode.NoticesCuts f.written := by
  induction f with
  | u8 | u16 | u24 | u32 | u64 | f32 => exact fun v c h => Decoder.number_lacks h
  | bool => exact Decoder.bool_noticesCuts
  | u256 | signature => exact fun v c h => Decoder.fixed_lacks h
  | bytes b => exact Decoder.NoticesCuts.stringBehindLength fun v => v.length_le
  | text b => exact Decoder.NoticesCuts.stringBehindLength fun v => v.length_le
  | sequence item b ih =>
    exact Decoder.NoticesCuts.behindLength (fun v : Sequence item.Value b => v.toList.length)
      (fun v => v.length_le) fun v c _ hcut => (Decoder.items_lacks item.decode_reads ih v.toList hcut).bind

/-- **So do the decoders of lists of fields.** -/
theorem Fields.decode_noticesCuts (fs : List WireFormat) : (Fields.decode fs).NoticesCuts (written fs) := by
  induction fs with
  | nil => exact fun v c h => absurd h Cursor.not_cutIn_nil
  | cons f fs ih => exact Decoder.NoticesCuts.pair f.decode_reads f.decode_noticesCuts ih

/-! ### Payloads -/

namespace Record

variable {M : Type} [Record M] {payload : Bytes} {m : M}

/-- A payload that is cut lacks input. -/
theorem deserialize_of_cut (h : deserialize M payload = .ok m) {part : Bytes} (hpart : part <+: payload)
    (hne : part ≠ payload) :
    ∃ cause, deserialize M part = .error (.message (type M) (.field cause)) ∧ cause.kind = .truncated := by
  obtain ⟨-, rfl⟩ := deserialize_eq_ok_iff.1 h
  obtain ⟨cause, c, hfields, hkind⟩ :=
    Fields.decode_noticesCuts (layout M) (fields m) _ (Cursor.cutIn_of_isPrefix hpart hne)
  have hdecode : decodeFields M (Cursor.ofBytes part) = .error cause c := Step.bind_of_error hfields
  exact ⟨cause, by rw [deserialize, hdecode], hkind⟩

/-- A payload that goes on has trailing bytes. -/
theorem deserialize_of_continued (h : deserialize M payload = .ok m) {more : Bytes} (hmore : more ≠ []) :
    deserialize M (payload ++ more) = .error (.message (type M) (.field .trailingBytes)) := by
  obtain ⟨-, rfl⟩ := deserialize_eq_ok_iff.1 h
  let behind : Cursor := ⟨0 + (Fields.written (layout M) (fields m)).length, more⟩
  have hfields : Fields.decode (layout M) (Cursor.ofBytes (Fields.written (layout M) (fields m) ++ more))
      = .ok (fields m) behind := (Fields.decode_reads (layout M) _ _ _).2 ⟨trivial, rfl, rfl⟩
  have hend : Decoder.expectEnd behind = .error .trailingBytes behind :=
    if_neg fun hempty => hmore (List.isEmpty_iff.1 hempty)
  have hdecode : decodeFields M (Cursor.ofBytes (Fields.written (layout M) (fields m) ++ more))
      = .error .trailingBytes behind := (Step.bind_of_ok hfields).trans (Step.bind_of_error hend)
  rw [deserialize, hdecode]

end Record

/-- **A payload can neither be cut nor continued.** For every type of messages and every payload that is read
as a message of the type: whatever is in front of its end is malformed, in the name of the type, because
input is missing; with anything behind its end it is malformed because of that; and so no other payload that
is read as a message of the type begins with it. -/
theorem payload_neither_cut_nor_continued (t : MessageType) {payload : Bytes} {m : t.Body}
    (h : Record.deserialize t.Body payload = .ok m) :
    (∀ part, part <+: payload → part ≠ payload → ∃ e cause, Record.deserialize t.Body part = .error e ∧
      e.kind = .malformedMessage ∧ e.messageType? = some t.code ∧ e = .message t (.field cause) ∧
        cause.kind = .truncated) ∧
    (∀ more, more ≠ [] → ∃ e cause, Record.deserialize t.Body (payload ++ more) = .error e ∧
      e.kind = .malformedMessage ∧ e.messageType? = some t.code ∧ e = .message t (.field cause) ∧
        cause = .trailingBytes ∧ cause.kind = .tooLong) ∧
    (∀ (other : Bytes) (m' : t.Body), Record.deserialize t.Body other = .ok m' → payload <+: other →
      payload = other) := by
  refine ⟨fun part hpart hne => ?_, fun more hmore => ?_, fun other m' h' hother => ?_⟩
  · obtain ⟨cause, he, hkind⟩ := Record.deserialize_of_cut h hpart hne
    rw [t.type_body] at he
    exact ⟨_, cause, he, rfl, rfl, rfl, hkind⟩
  · have he := Record.deserialize_of_continued h hmore
    rw [t.type_body] at he
    exact ⟨_, _, he, rfl, rfl, rfl, rfl, rfl⟩
  · refine Decidable.byContradiction fun hne => ?_
    obtain ⟨_, he, -⟩ := Record.deserialize_of_cut h' hother hne
    cases h.symm.trans he

/-- A set-up whose vendor is a letter of two bytes, cut between the two: what is left is no text, but it is refused
as truncated. -/
theorem payload_neither_cut_nor_continued_on_sample :
    ∃ (payload part : Bytes) (m : SetupConnection), m.vendor.toBytes = [0xC3, 0xA9] ∧
      Record.deserialize SetupConnection payload = .ok m ∧ part = payload.take 14 ∧ part.drop 13 = [0xC3] ∧
        ∃ e cause, Record.deserialize SetupConnection part = .error e ∧ e.kind = .malformedMessage ∧
          e.messageType? = some 0x00 ∧ e = .message .setupConnection (.field cause) ∧ cause.kind = .truncated := by
  let m : SetupConnection :=
    { vendor := ⟨[0xC3, 0xA9], by decide, by decide⟩, firmware := ⟨[0x66], by decide, by decide⟩ }
  let payload := Fields.written (Record.layout SetupConnection) (Record.fields m)
  have h : Record.deserialize SetupConnection payload = .ok m := Record.deserialize_eq_ok_iff.2 ⟨rfl, rfl⟩
  have hne : payload.take 14 ≠ payload := by decide
  exact ⟨payload, payload.take 14, m, rfl, h, rfl, by decide,
    (payload_neither_cut_nor_continued .setupConnection h).1 _ (List.take_prefix 14 payload) hne⟩

end Stratum
