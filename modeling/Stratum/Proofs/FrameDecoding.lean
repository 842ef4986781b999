import Stratum.Frame.Decode
import Stratum.Proofs.Codec
import Stratum.Proofs.RecordLayer

/-!
# Decoding frames

The decoder of frames looks at a place in a byte string and says what it finds there.
This module says what that is, for every place and every cap.

* `Frame.decode_finds`: the decoder never fails. It finds a frame, or a header that
  declares a payload over the cap (`Frame.OverCap`), or less than a frame
  (`Frame.Incomplete`).
* `Frame.decode_eq_frame_iff`: it finds a frame exactly where the bytes of that frame
  are, if it is within the cap. No byte string starts with two frames
  (`Frame.bytes_append_inj`).
* `Frame.decodedFrom_iff`: frame after frame, it finds the frames whose bytes are one
  behind the other.
-/

namespace Stratum

/-! ### Headers in front of a byte string -/

namespace FrameHeader

theorem peek?_eq_none_iff {bs : Bytes} : peek? bs = none ↔ bs.length < frameHeaderLength := by
  unfold peek? frameHeaderLength
  split
  · simp
  · rename_i h
    simp only [true_iff]
    match bs, h with
    | [], _ | [_], _ | [_, _], _ | [_, _, _], _ | [_, _, _, _], _ | [_, _, _, _, _], _ => simp
    | e₀ :: e₁ :: t :: l₀ :: l₁ :: l₂ :: rest, h => exact absurd rfl (h e₀ e₁ t l₀ l₁ l₂ rest)

/-- Only the first six bytes count. -/
theorem peek?_append {bs rest : Bytes} (hlen : bs.length = frameHeaderLength) :
    peek? (bs ++ rest) = peek? bs := by
  match bs, hlen with
  | [e₀, e₁, t, l₀, l₁, l₂], _ => rfl

/-- A header is in front of a byte string if its six bytes are. -/
theorem peek?_eq_some_iff_append {bs : Bytes} {h : FrameHeader} :
    peek? bs = some h ↔ h.payloadLength.toNat ≤ maxPayloadLength ∧ ∃ rest, bs = h.bytes ++ rest := by
  constructor
  · intro hpeek
    have hlen : frameHeaderLength ≤ bs.length := by
      refine Nat.le_of_not_lt fun hlt => ?_
      rw [peek?_eq_none_iff.2 hlt] at hpeek
      cases hpeek
    have htake : (bs.take frameHeaderLength).length = frameHeaderLength := List.length_take_of_le hlen
    rw [← List.take_append_drop frameHeaderLength bs, peek?_append htake] at hpeek
    obtain ⟨hle, hbytes⟩ := (peek?_eq_some_iff htake).1 hpeek
    exact ⟨hle, bs.drop frameHeaderLength, by rw [← hbytes, List.take_append_drop]⟩
  · rintro ⟨hle, rest, rfl⟩
    rw [peek?_append h.length_bytes]
    exact (peek?_eq_some_iff h.length_bytes).2 ⟨hle, rfl⟩

end FrameHeader

/-! ### Decoding one frame -/

namespace Frame

/-- The bytes of a frame: its header and its payload. -/
def bytes (f : Frame) : Bytes := f.header.bytes ++ f.payload

theorem encode_eq (f : Frame) : f.encode = .ok f.bytes :=
  Attempt.bind_of_ok (FrameHeader.encode_of_le f.payloadLength_le)

theorem length_bytes (f : Frame) : f.bytes.length = frameHeaderLength + f.payload.length := by
  rw [bytes, List.length_append, FrameHeader.length_bytes]

/-- A frame is known by its header and its payload. -/
theorem eq_of_header_eq {f g : Frame} (hheader : f.header = g.header) (hpayload : f.payload = g.payload) :
    f = g := by
  have hf := f.make_header
  rw [hheader, hpayload, g.make_header] at hf
  exact (Except.ok.inj hf).symm

theorem peek?_bytes_append (f : Frame) (rest : Bytes) :
    FrameHeader.peek? (f.bytes ++ rest) = some f.header :=
  FrameHeader.peek?_eq_some_iff_append.2
    ⟨f.payloadLength_le, f.payload ++ rest, List.append_assoc _ _ _⟩

/-- No byte string starts with two frames. -/
theorem bytes_append_inj {f g : Frame} {a b : Bytes} (h : f.bytes ++ a = g.bytes ++ b) : f = g ∧ a = b := by
  have hheader : f.header = g.header := by
    have hpeek := f.peek?_bytes_append a
    rw [h, peek?_bytes_append] at hpeek
    exact (Option.some.inj hpeek).symm
  have hlen : f.bytes.length = g.bytes.length := by
    rw [length_bytes, length_bytes, ← f.toNat_payloadLength, hheader, g.toNat_payloadLength]
  obtain ⟨hbytes, hrest⟩ := List.append_inj h hlen
  rw [bytes, bytes, hheader] at hbytes
  exact ⟨eq_of_header_eq hheader (List.append_cancel_left hbytes), hrest⟩

/-- A byte string starts with a header that declares a payload over the cap. -/
def OverCap (limits : FrameLimits) (bs : Bytes) : Prop :=
  ∃ h, FrameHeader.peek? bs = some h ∧ limits.maxPayload < h.payloadLength

/-- A byte string is less than a frame: it is shorter than a header, or starts with a header within the
cap and is shorter than what that declares. -/
def Incomplete (limits : FrameLimits) (bs : Bytes) : Prop :=
  bs.length < frameHeaderLength ∨ ∃ h, FrameHeader.peek? bs = some h ∧
    h.payloadLength ≤ limits.maxPayload ∧ bs.length < frameHeaderLength + h.payloadLength.toNat

/-- What can be found at a place. -/
inductive Finds (limits : FrameLimits) (c : Cursor) : FrameStep × Cursor → Prop
  /-- Less than a frame. -/
  | incomplete {needed : Nat} (incomplete : Incomplete limits c.rest) : Finds limits c (.incomplete needed, c)
  /-- A header over the cap. -/
  | overCap (exceeds : OverCap limits c.rest) : Finds limits c (.invalid .declaredOverCap, c)
  /-- A frame within the cap. -/
  | frame {f : Frame} {c' : Cursor} (within : f.payload.length ≤ limits.maxPayload.toNat)
    (passes : c.Passes f.bytes c') : Finds limits c (.frame f, c')

/-- The frame with a header and a payload of the length that it declares. -/
theorem exists_make {h : FrameHeader} {payload : Bytes} {limits : FrameLimits}
    (hlen : payload.length = h.payloadLength.toNat) (hmax : h.payloadLength.toNat ≤ maxPayloadLength)
    (hcap : h.payloadLength ≤ limits.maxPayload) :
    ∃ f, Frame.make h.extensionType h.messageType payload limits = .ok f ∧ f.header = h ∧
      f.payload = payload := by
  rw [← hlen] at hmax
  rw [UInt32.le_iff_toNat_le, ← hlen] at hcap
  have hL : UInt32.ofNat payload.length = h.payloadLength := by rw [hlen, UInt32.ofNat_toNat]
  exact ⟨⟨h.extensionType, h.messageType, payload, hmax⟩, dif_pos ⟨hmax, hcap⟩,
    congrArg (FrameHeader.mk h.extensionType h.messageType) hL, rfl⟩

/-- **What the decoder finds.** It does not fail. -/
theorem decode_finds (limits : FrameLimits) (c : Cursor) :
    ∃ r, Frame.decode limits c = .ok r ∧ Finds limits c r := by
  unfold Frame.decode
  cases hpeek : FrameHeader.peek? c.rest with
  | none => exact ⟨_, rfl, .incomplete (.inl (FrameHeader.peek?_eq_none_iff.1 hpeek))⟩
  | some h =>
    dsimp only
    by_cases hcap : limits.maxPayload < h.payloadLength
    · rw [if_pos hcap]
      exact ⟨_, rfl, .overCap ⟨h, hpeek, hcap⟩⟩
    · rw [if_neg hcap]
      have hwithin := UInt32.not_lt.1 hcap
      by_cases hhas : c.has (frameHeaderLength + h.payloadLength.toNat) = true
      · rw [if_pos hhas]
        have hlen : frameHeaderLength + h.payloadLength.toNat ≤ c.rest.length := Cursor.has_iff.1 hhas
        obtain ⟨hmax, rest, hrest⟩ := FrameHeader.peek?_eq_some_iff_append.1 hpeek
        have hdrop : c.rest.drop frameHeaderLength = rest := by
          rw [hrest, List.drop_left' h.length_bytes]
        have hpayload : (rest.take h.payloadLength.toNat).length = h.payloadLength.toNat := by
          rw [hrest, List.length_append, h.length_bytes] at hlen
          exact List.length_take_of_le (by omega)
        obtain ⟨f, hmake, hheader, hf⟩ := @exists_make _ _ limits hpayload hmax hwithin
        rw [hdrop, Attempt.bind_of_ok hmake]
        have hbytes : c.rest.take (frameHeaderLength + h.payloadLength.toNat) = f.bytes := by
          rw [List.take_add, hdrop, hrest, List.take_left' h.length_bytes, bytes, hheader, hf]
        refine ⟨_, rfl, .frame ?_ (hbytes ▸ Cursor.passes_advance hlen)⟩
        rw [hf, hpayload]
        exact UInt32.le_iff_toNat_le.1 hwithin
      · rw [if_neg hhas]
        refine ⟨_, rfl, .incomplete (.inr ⟨h, hpeek, hwithin, ?_⟩)⟩
        exact Nat.lt_of_not_le fun hle => hhas (Cursor.has_iff.2 hle)

/-- What starts with a frame within the cap is neither less than a frame, nor does it start with a header
over the cap. -/
theorem whole_of_bytes {limits : FrameLimits} {f : Frame} {bs rest : Bytes}
    (hwithin : f.payload.length ≤ limits.maxPayload.toNat) (hbs : bs = f.bytes ++ rest) :
    ¬ Incomplete limits bs ∧ ¬ OverCap limits bs := by
  subst hbs
  have hpeek := f.peek?_bytes_append rest
  have hlen : (f.bytes ++ rest).length = frameHeaderLength + f.payload.length + rest.length := by
    rw [List.length_append, length_bytes]
  constructor
  · rintro (hshort | ⟨g, hg, -, hcut⟩)
    · omega
    · cases hpeek.symm.trans hg
      rw [f.toNat_payloadLength] at hcut
      omega
  · rintro ⟨g, hg, hover⟩
    cases hpeek.symm.trans hg
    rw [UInt32.lt_iff_toNat_lt, f.toNat_payloadLength] at hover
    omega

theorem Incomplete.not_overCap {limits : FrameLimits} {bs : Bytes} (h : Incomplete limits bs) :
    ¬ OverCap limits bs := by
  rintro ⟨g, hg, hover⟩
  rcases h with hshort | ⟨g', hg', hwithin, -⟩
  · cases (FrameHeader.peek?_eq_none_iff.2 hshort).symm.trans hg
  · cases hg'.symm.trans hg
    exact UInt32.not_lt.2 hwithin hover

/-- **A frame is found exactly where its bytes are**, if it is within the cap. -/
theorem decode_eq_frame_iff {limits : FrameLimits} {c c' : Cursor} {f : Frame} :
    Frame.decode limits c = .ok (.frame f, c') ↔
      f.payload.length ≤ limits.maxPayload.toNat ∧ c.Passes f.bytes c' := by
  obtain ⟨r, hr, hfinds⟩ := decode_finds limits c
  constructor
  · intro h
    cases hr.symm.trans h
    cases hfinds with
    | frame within passes => exact ⟨within, passes⟩
  · rintro ⟨hwithin, hpasses⟩
    obtain ⟨hwhole, hcap⟩ := whole_of_bytes hwithin hpasses.rest_eq
    cases hfinds with
    | incomplete h => exact absurd h hwhole
    | overCap h => exact absurd h hcap
    | @frame g c'' _ passes =>
      have hsame := passes.rest_eq.symm.trans hpasses.rest_eq
      obtain ⟨rfl, -⟩ := bytes_append_inj hsame
      rw [hr, passes.eq_advance, hpasses.eq_advance]

theorem exists_decode_eq_frame_iff {limits : FrameLimits} {c : Cursor} {f : Frame} :
    (∃ c', Frame.decode limits c = .ok (.frame f, c')) ↔
      f.payload.length ≤ limits.maxPayload.toNat ∧ ∃ rest, c.rest = f.bytes ++ rest := by
  constructor
  · rintro ⟨c', hdecode⟩
    obtain ⟨hwithin, hpasses⟩ := decode_eq_frame_iff.1 hdecode
    exact ⟨hwithin, c'.rest, hpasses.rest_eq⟩
  · rintro ⟨hwithin, rest, hrest⟩
    exact ⟨⟨c.position + f.bytes.length, rest⟩, decode_eq_frame_iff.2 ⟨hwithin, hrest, rfl⟩⟩

/-! ### Decoding frame after frame -/

/-- Frames that are decoded one after another from a place on, up to another. -/
inductive DecodedFrom (limits : FrameLimits) : Cursor → List Frame → Cursor → Prop
  /-- None is decoded. -/
  | nil {c : Cursor} : DecodedFrom limits c [] c
  /-- One is decoded, and others behind it. -/
  | cons {c c' c'' : Cursor} {f : Frame} {frames : List Frame} :
    Frame.decode limits c = .ok (.frame f, c') → DecodedFrom limits c' frames c'' →
      DecodedFrom limits c (f :: frames) c''

theorem decodedFrom_iff {limits : FrameLimits} {c c' : Cursor} {frames : List Frame} :
    DecodedFrom limits c frames c' ↔
      (∀ f ∈ frames, f.payload.length ≤ limits.maxPayload.toNat) ∧ c.Passes (frames.flatMap bytes) c' := by
  constructor
  · intro h
    induction h with
    | nil => exact ⟨fun f hf => absurd hf List.not_mem_nil, Cursor.passes_nil_iff.2 rfl⟩
    | cons hdecode _ ih =>
      obtain ⟨hwithin, hpasses⟩ := decode_eq_frame_iff.1 hdecode
      exact ⟨List.forall_mem_cons.2 ⟨hwithin, ih.1⟩, Cursor.passes_append_iff.2 ⟨_, hpasses, ih.2⟩⟩
  · rintro ⟨hwithin, hpasses⟩
    induction frames generalizing c with
    | nil =>
      cases Cursor.passes_nil_iff.1 hpasses
      exact .nil
    | cons f frames ih =>
      obtain ⟨hf, hframes⟩ := List.forall_mem_cons.1 hwithin
      obtain ⟨c₁, hpasses, hrest⟩ := Cursor.passes_append_iff.1 hpasses
      exact .cons (decode_eq_frame_iff.2 ⟨hf, hpasses⟩) (ih hframes hrest)

/-- Every frame has a byte. -/
theorem length_le_flatMap_bytes (frames : List Frame) : frames.length ≤ (frames.flatMap bytes).length :=
  WireFormat.length_le_flatMap (fun f => by rw [length_bytes]; exact Nat.le_add_right_of_le (by decide)) frames

/-- Frames that are in front of the bytes of others are the first of those. -/
theorem flatMap_bytes_append_eq {given frames : List Frame} {unread : Bytes}
    (h : given.flatMap bytes ++ unread = frames.flatMap bytes) :
    ∃ rest, frames = given ++ rest ∧ unread = rest.flatMap bytes := by
  induction given generalizing frames with
  | nil => exact ⟨frames, rfl, h⟩
  | cons g given ih =>
    cases frames with
    | nil =>
      have hlen := congrArg List.length h
      rw [List.flatMap_cons, List.append_assoc, List.length_append, length_bytes, frameHeaderLength] at hlen
      simp at hlen
    | cons f frames =>
      rw [List.flatMap_cons, List.flatMap_cons, List.append_assoc] at h
      obtain ⟨rfl, htail⟩ := bytes_append_inj h
      obtain ⟨rest, rfl, hunread⟩ := ih htail
      exact ⟨rest, rfl, hunread⟩

end Frame

end Stratum
