import Stratum.Proofs.FrameDecoding

/-!
# What the decoder of frames says, exactly

The decoder is asked again and again while bytes arrive, and what it says decides how many
bytes are waited for. This module says what it answers at every place and under every cap,
those that no configuration would pass among them, from two numbers: how many bytes are left
at the place, and the length that a header there declares (`Frame.declaredLength`).

* `Frame.verdict`: there are four cases, and each has one answer: how much of a header is
  missing, a refusal, how much of the frame is missing, or the frame.
* `Frame.verdict_extend`: a refusal and a frame are final, since what decides them is in front.
* **`Frame.decode_exact_and_stable`**: the decoder says what the bytes are, says the same when
  more of them have arrived, and finds every frame in front of anything.
-/

namespace Stratum

/-- The same place after more bytes have arrived. -/
def Cursor.extend (c : Cursor) (more : Bytes) : Cursor := ⟨c.position, c.rest ++ more⟩

theorem Cursor.remaining_extend (c : Cursor) (more : Bytes) :
    (c.extend more).remaining = c.remaining + more.length := List.length_append

namespace Frame

/-! ### The declared length -/

/-- The payload length that a header declares: its last three bytes. -/
def declaredLength (bs : Bytes) : Nat := Bytes.toNatLE ((bs.drop 3).take 3)

/-- A header is there as soon as its six bytes are, and it says what they declare. -/
theorem exists_peek? {bs : Bytes} (h : 6 ≤ bs.length) :
    ∃ g, FrameHeader.peek? bs = some g ∧ g.payloadLength.toNat = declaredLength bs := by
  match bs, h with
  | e₀ :: e₁ :: t :: l₀ :: l₁ :: l₂ :: rest, _ =>
    have hlt : Bytes.toNatLE [l₀, l₁, l₂] < 16777216 := Bytes.toNatLE_lt [l₀, l₁, l₂]
    exact ⟨_, rfl, UInt32.toNat_ofNat_of_lt' (Nat.lt_of_lt_of_le hlt (by decide))⟩

/-- Only the first six bytes count. -/
theorem declaredLength_append {bs : Bytes} (h : 6 ≤ bs.length) (more : Bytes) :
    declaredLength (bs ++ more) = declaredLength bs := by
  match bs, h with
  | _ :: _ :: _ :: _ :: _ :: _ :: _, _ => rfl

/-- The bytes of a frame declare the length of its payload. -/
theorem declaredLength_bytes_append (f : Frame) (rest : Bytes) :
    declaredLength (f.bytes ++ rest) = f.payload.length := by
  have hlong : 6 ≤ (f.bytes ++ rest).length := by
    rw [List.length_append, length_bytes, frameHeaderLength]
    omega
  obtain ⟨g, hg, hlength⟩ := exists_peek? hlong
  cases (f.peek?_bytes_append rest).symm.trans hg
  rw [← hlength, f.toNat_payloadLength]

/-! ### The four answers -/

section

variable {limits : FrameLimits} {c : Cursor}

theorem decode_of_short (h : c.remaining < 6) :
    decode limits c = .ok (.incomplete (6 - c.remaining), c) := by
  rw [decode, FrameHeader.peek?_eq_none_iff.2 h]
  rfl

theorem decode_of_overCap (hheader : 6 ≤ c.remaining) (h : limits.maxPayload.toNat < declaredLength c.rest) :
    decode limits c = .ok (.invalid .declaredOverCap, c) := by
  obtain ⟨g, hg, hlength⟩ := exists_peek? hheader
  rw [← hlength] at h
  rw [decode, hg]
  exact if_pos (UInt32.lt_iff_toNat_lt.2 h)

theorem decode_of_missing (hheader : 6 ≤ c.remaining) (hcap : declaredLength c.rest ≤ limits.maxPayload.toNat)
    (h : c.remaining < 6 + declaredLength c.rest) :
    decode limits c = .ok (.incomplete (6 + declaredLength c.rest - c.remaining), c) := by
  obtain ⟨g, hg, hlength⟩ := exists_peek? hheader
  rw [← hlength] at hcap h ⊢
  have hwithin : ¬ limits.maxPayload < g.payloadLength := UInt32.not_lt.2 (UInt32.le_iff_toNat_le.2 hcap)
  have hhas : ¬ c.has (6 + g.payloadLength.toNat) = true := fun hhas => Nat.not_le.2 h (Cursor.has_iff.1 hhas)
  rw [decode, hg]
  exact (if_neg hwithin).trans (if_neg hhas)

theorem decode_of_whole (hcap : declaredLength c.rest ≤ limits.maxPayload.toNat)
    (h : 6 + declaredLength c.rest ≤ c.remaining) :
    ∃ f, decode limits c = .ok (.frame f, c.advance (6 + declaredLength c.rest)) ∧
      f.encode = .ok (c.rest.take (6 + declaredLength c.rest)) := by
  have hheader : 6 ≤ c.remaining := Nat.le_trans (Nat.le_add_right 6 _) h
  obtain ⟨g, hg, hlength⟩ := exists_peek? hheader
  obtain ⟨r, hr, hfinds⟩ := decode_finds limits c
  cases hfinds with
  | incomplete hshort =>
    exfalso
    rcases hshort with hshort | ⟨g', hg', -, hmissing⟩
    · exact absurd hshort (Nat.not_lt.2 hheader)
    · cases hg.symm.trans hg'
      rw [hlength] at hmissing
      exact absurd hmissing (Nat.not_lt.2 h)
  | overCap hover =>
    exfalso
    obtain ⟨g', hg', hover⟩ := hover
    cases hg.symm.trans hg'
    rw [UInt32.lt_iff_toNat_lt, hlength] at hover
    exact absurd hover (Nat.not_lt.2 hcap)
  | @frame f c' within passes =>
    have hdeclared : f.bytes.length = 6 + declaredLength c.rest := by
      rw [length_bytes, passes.rest_eq, declaredLength_bytes_append]
      rfl
    rw [← hdeclared]
    exact ⟨f, by rw [hr, passes.eq_advance], by rw [encode_eq, passes.take_eq]⟩

/-- **The four cases and their answers.** -/
theorem verdict (limits : FrameLimits) (c : Cursor) :
    c.remaining < 6 ∧ decode limits c = .ok (.incomplete (6 - c.remaining), c) ∨
    6 ≤ c.remaining ∧ limits.maxPayload.toNat < declaredLength c.rest ∧
      decode limits c = .ok (.invalid .declaredOverCap, c) ∨
    6 ≤ c.remaining ∧ declaredLength c.rest ≤ limits.maxPayload.toNat ∧
      c.remaining < 6 + declaredLength c.rest ∧
      decode limits c = .ok (.incomplete (6 + declaredLength c.rest - c.remaining), c) ∨
    declaredLength c.rest ≤ limits.maxPayload.toNat ∧ 6 + declaredLength c.rest ≤ c.remaining ∧
      ∃ f, decode limits c = .ok (.frame f, c.advance (6 + declaredLength c.rest)) := by
  by_cases hshort : c.remaining < 6
  · exact .inl ⟨hshort, decode_of_short hshort⟩
  have hheader := Nat.le_of_not_lt hshort
  by_cases hover : limits.maxPayload.toNat < declaredLength c.rest
  · exact .inr (.inl ⟨hheader, hover, decode_of_overCap hheader hover⟩)
  have hcap := Nat.le_of_not_lt hover
  by_cases hmissing : c.remaining < 6 + declaredLength c.rest
  · exact .inr (.inr (.inl ⟨hheader, hcap, hmissing, decode_of_missing hheader hcap hmissing⟩))
  · have hwhole := Nat.le_of_not_lt hmissing
    obtain ⟨f, hf, -⟩ := decode_of_whole hcap hwhole
    exact .inr (.inr (.inr ⟨hcap, hwhole, f, hf⟩))

/-- What is final stays as it is when more bytes arrive. -/
theorem verdict_extend (more : Bytes) :
    (∀ cause c', decode limits c = .ok (.invalid cause, c') →
      decode limits (c.extend more) = .ok (.invalid cause, c'.extend more)) ∧
    (∀ f c', decode limits c = .ok (.frame f, c') →
      decode limits (c.extend more) = .ok (.frame f, c'.extend more)) := by
  constructor
  · intro cause c' h
    rcases verdict limits c with ⟨-, heq⟩ | ⟨hheader, hover, heq⟩ | ⟨-, -, -, heq⟩ | ⟨-, -, f, heq⟩ <;>
      cases heq.symm.trans h
    have hlonger : 6 ≤ (c.extend more).remaining := by
      rw [Cursor.remaining_extend]
      exact Nat.le_add_right_of_le hheader
    have hdeclared : declaredLength (c.extend more).rest = declaredLength c.rest :=
      declaredLength_append hheader more
    exact decode_of_overCap hlonger (by rwa [hdeclared])
  · intro f c' h
    obtain ⟨hwithin, hpasses⟩ := decode_eq_frame_iff.1 h
    refine decode_eq_frame_iff.2 ⟨hwithin, ?_, hpasses.position_eq⟩
    show c.rest ++ more = f.bytes ++ (c'.rest ++ more)
    rw [hpasses.rest_eq, List.append_assoc]

end

/-! ### Exactness -/

/-- What the decoder says of a place, by the number of bytes that are left there and by the length that the
first six of them declare. -/
structure DecodesExactly (limits : FrameLimits) (c : Cursor) : Prop where
  /-- It never fails. -/
  total : ∃ r, decode limits c = .ok r
  /-- It asks for the rest of a header exactly if less than a header is there. -/
  short : decode limits c = .ok (.incomplete (6 - c.remaining), c) ↔ c.remaining < 6
  /-- It refuses a header exactly if that declares a payload over the cap. -/
  overCap : 6 ≤ c.remaining → (decode limits c = .ok (.invalid .declaredOverCap, c) ↔
    limits.maxPayload.toNat < declaredLength c.rest)
  /-- It asks for the rest of a frame exactly if less than the frame is there. -/
  missing : 6 ≤ c.remaining → declaredLength c.rest ≤ limits.maxPayload.toNat →
    (decode limits c = .ok (.incomplete (6 + declaredLength c.rest - c.remaining), c) ↔
      c.remaining < 6 + declaredLength c.rest)
  /-- Otherwise it gives the frame that the next bytes write. -/
  whole : 6 + declaredLength c.rest ≤ c.remaining → declaredLength c.rest ≤ limits.maxPayload.toNat →
    ∃ f, decode limits c = .ok (.frame f, c.advance (6 + declaredLength c.rest)) ∧
      f.encode = .ok (c.rest.take (6 + declaredLength c.rest))
  /-- The place is left only for the one behind a frame. -/
  moves : ∀ step c', decode limits c = .ok (step, c') →
    (∃ f, step = .frame f) ∧ c' = c.advance (6 + declaredLength c.rest) ∨ (∀ f, step ≠ .frame f) ∧ c' = c
  /-- A refusal is final. -/
  staysInvalid : ∀ cause c' more, decode limits c = .ok (.invalid cause, c') →
    decode limits (c.extend more) = .ok (.invalid cause, c'.extend more)
  /-- So is a frame. -/
  staysFrame : ∀ f c' more, decode limits c = .ok (.frame f, c') →
    decode limits (c.extend more) = .ok (.frame f, c'.extend more)

theorem decodesExactly (limits : FrameLimits) (c : Cursor) : DecodesExactly limits c where
  total := by
    obtain ⟨r, hr, -⟩ := decode_finds limits c
    exact ⟨r, hr⟩
  short := by
    refine ⟨fun h => ?_, decode_of_short⟩
    rcases verdict limits c with ⟨hshort, -⟩ | ⟨-, -, heq⟩ | ⟨hheader, -, hmissing, heq⟩ | ⟨-, -, f, heq⟩
    · exact hshort
    · cases heq.symm.trans h
    · -- More than a header would be missing than the six bytes of one.
      have hsame := heq.symm.trans h
      simp only [Except.ok.injEq, Prod.mk.injEq, FrameStep.incomplete.injEq, and_true] at hsame
      omega
    · cases heq.symm.trans h
  overCap hheader := by
    refine ⟨fun h => ?_, decode_of_overCap hheader⟩
    rcases verdict limits c with ⟨-, heq⟩ | ⟨-, hover, -⟩ | ⟨-, -, -, heq⟩ | ⟨-, -, f, heq⟩
    · cases heq.symm.trans h
    · exact hover
    · cases heq.symm.trans h
    · cases heq.symm.trans h
  missing hheader hcap := by
    refine ⟨fun h => ?_, decode_of_missing hheader hcap⟩
    rcases verdict limits c with ⟨hshort, -⟩ | ⟨-, hover, -⟩ | ⟨-, -, hmissing, -⟩ | ⟨-, -, f, heq⟩
    · omega
    · omega
    · exact hmissing
    · cases heq.symm.trans h
  whole hwhole hcap := decode_of_whole hcap hwhole
  moves step c' h := by
    rcases verdict limits c with ⟨-, heq⟩ | ⟨-, -, heq⟩ | ⟨-, -, -, heq⟩ | ⟨-, -, f, heq⟩ <;>
      cases heq.symm.trans h
    · exact .inr ⟨fun _ => nofun, rfl⟩
    · exact .inr ⟨fun _ => nofun, rfl⟩
    · exact .inr ⟨fun _ => nofun, rfl⟩
    · exact .inl ⟨⟨f, rfl⟩, rfl⟩
  staysInvalid cause c' more := (verdict_extend more).1 cause c'
  staysFrame f c' more := (verdict_extend more).2 f c'

theorem length_le_of_make {extensionType : UInt16} {messageType : UInt8} {payload : Bytes} {limits : FrameLimits}
    {f : Frame} (h : Frame.make extensionType messageType payload limits = .ok f) :
    f.payload.length ≤ limits.maxPayload.toNat := by
  unfold Frame.make at h
  split at h
  · rename_i hfits
    cases h
    exact hfits.2
  · cases h

/-- **The decoder is exact, and what it has said is stable.** At every place and under every cap it says what the
bytes there are; and every frame that can be made under the cap is found, wherever its bytes are and whatever
follows them, and what follows is left. -/
theorem decode_exact_and_stable (limits : FrameLimits) :
    (∀ c, DecodesExactly limits c) ∧
    (∀ extensionType messageType payload f, Frame.make extensionType messageType payload limits = .ok f →
      ∃ bs, f.encode = .ok bs ∧ ∀ position rest,
        decode limits ⟨position, bs ++ rest⟩ = .ok (.frame f, ⟨position + bs.length, rest⟩)) := by
  refine ⟨decodesExactly limits, fun extensionType messageType payload f hmake => ⟨f.bytes, f.encode_eq, ?_⟩⟩
  intro position rest
  exact decode_eq_frame_iff.2 ⟨length_le_of_make hmake, rfl, rfl⟩

/-- Under a cap that no configuration passes, since no header can declare so much, a frame with a channel bit is
found at the fifth byte of a string and before the beginning of another. -/
theorem decode_exact_and_stable_on_sample :
    ∃ f : Frame, Frame.make 0x8000 0x15 [7, 8, 9] { maxPayload := 0xFFFFFFFF } = .ok f ∧
      decode { maxPayload := 0xFFFFFFFF } ⟨4, [0x00, 0x80, 0x15, 3, 0, 0, 7, 8, 9, 0x00, 0x80]⟩
        = .ok (.frame f, ⟨13, [0x00, 0x80]⟩) ∧
      decode { maxPayload := 0xFFFFFFFF } ⟨13, [0x00, 0x80]⟩ = .ok (.incomplete 4, ⟨13, [0x00, 0x80]⟩) := by
  let f : Frame := ⟨0x8000, 0x15, [7, 8, 9], by decide⟩
  have hmake : Frame.make 0x8000 0x15 [7, 8, 9] { maxPayload := 0xFFFFFFFF } = .ok f := rfl
  obtain ⟨hexact, hfound⟩ := decode_exact_and_stable { maxPayload := 0xFFFFFFFF }
  obtain ⟨bs, hbs, hdecode⟩ := hfound 0x8000 0x15 [7, 8, 9] f hmake
  have hbytes : f.bytes = [0x00, 0x80, 0x15, 3, 0, 0, 7, 8, 9] := by decide
  cases hbs.symm.trans (f.encode_eq.trans (congrArg Except.ok hbytes))
  exact ⟨f, hmake, hdecode 4 [0x00, 0x80], (hexact ⟨13, [0x00, 0x80]⟩).short.2 (by decide)⟩

end Frame

end Stratum
