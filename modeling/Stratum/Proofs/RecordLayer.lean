import Mathlib.Logic.Function.Iterate
import Stratum.Proofs.Sealing
import Stratum.Proofs.Steps
import Stratum.Session

/-!
# The record layer

A sender cuts a frame into pieces by its payload; a receiver finds the pieces again
from a header of six bytes that it has to open first. This module says what each
does with one frame as a whole, and that the two fit.

* A frame has `Frame.pieces`, and from a direction they become one byte string,
  `Direction.sealedFrame`, of the size that the header declares
  (`Direction.length_sealedFrame`).
* `Session.encrypt_eq_ok_iff`: encrypting gives that byte string, exactly if the
  session is sound, the payload within the cap and the nonces left suffice.
* `Session.decrypt_eq_ok_iff`: decrypting gives a frame on that byte string and on
  no other, under the same conditions.
* **`Session.decrypt_iff_encrypt`**: of a sender and a receiver in step, the one
  accepts exactly what the other produces, and they stay in step.

A direction is left to itself: what it is after a number of pieces
(`Direction.skip`) depends on no piece, so that rekeying in the middle of a frame is
no case of its own.
-/

namespace Stratum

/-! ### Headers -/

namespace FrameHeader

/-- The six bytes of a header. -/
def bytes (h : FrameHeader) : Bytes :=
  Bytes.ofNatLE 2 h.extensionType.toNat ++ h.messageType :: Bytes.ofNatLE 3 h.payloadLength.toNat

@[simp] theorem length_bytes (h : FrameHeader) : h.bytes.length = frameHeaderLength := by
  simp [bytes, frameHeaderLength]

theorem encode_of_le {h : FrameHeader} (hle : h.payloadLength.toNat ≤ maxPayloadLength) :
    h.encode = .ok h.bytes := if_pos hle

/-- Six bytes are the header that they say, and every header that can be written is said by its bytes. -/
theorem peek?_eq_some_iff {bs : Bytes} {h : FrameHeader} (hlen : bs.length = frameHeaderLength) :
    peek? bs = some h ↔ h.payloadLength.toNat ≤ maxPayloadLength ∧ bs = h.bytes := by
  constructor
  · intro hpeek
    obtain ⟨e₀, e₁, t, l₀, l₁, l₂, rfl⟩ : ∃ e₀ e₁ t l₀ l₁ l₂, bs = [e₀, e₁, t, l₀, l₁, l₂] := by
      match bs, hlen with
      | [e₀, e₁, t, l₀, l₁, l₂], _ => exact ⟨e₀, e₁, t, l₀, l₁, l₂, rfl⟩
    cases hpeek
    have he : Bytes.toNatLE [e₀, e₁] < 65536 := Bytes.toNatLE_lt [e₀, e₁]
    have hl : Bytes.toNatLE [l₀, l₁, l₂] < 16777216 := Bytes.toNatLE_lt [l₀, l₁, l₂]
    have hE : (UInt16.ofNat (Bytes.toNatLE [e₀, e₁])).toNat = Bytes.toNatLE [e₀, e₁] :=
      UInt16.toNat_ofNat_of_lt' he
    have hL : (UInt32.ofNat (Bytes.toNatLE [l₀, l₁, l₂])).toNat = Bytes.toNatLE [l₀, l₁, l₂] :=
      UInt32.toNat_ofNat_of_lt' (Nat.lt_of_lt_of_le hl (by decide))
    constructor
    · rw [hL, maxPayloadLength]
      omega
    · rw [bytes, hE, hL]
      exact congrArg₂ (fun a b => a ++ t :: b) (Bytes.ofNatLE_toNatLE [e₀, e₁]).symm
        (Bytes.ofNatLE_toNatLE [l₀, l₁, l₂]).symm
  · rintro ⟨hle, rfl⟩
    have hE : Bytes.toNatLE (Bytes.ofNatLE 2 h.extensionType.toNat) = h.extensionType.toNat :=
      Bytes.toNatLE_ofNatLE h.extensionType.toNat_lt
    have hL : Bytes.toNatLE (Bytes.ofNatLE 3 h.payloadLength.toNat) = h.payloadLength.toNat :=
      Bytes.toNatLE_ofNatLE (Nat.lt_succ_of_le hle)
    show some (FrameHeader.mk (UInt16.ofNat (Bytes.toNatLE (Bytes.ofNatLE 2 h.extensionType.toNat)))
      h.messageType (UInt32.ofNat (Bytes.toNatLE (Bytes.ofNatLE 3 h.payloadLength.toNat)))) = some h
    rw [hE, hL, UInt16.ofNat_toNat, UInt32.ofNat_toNat]

end FrameHeader

/-! ### Pieces -/

/-- A string has as many pieces as it takes to hold it. -/
theorem Bytes.length_chunks {n : Nat} (hn : n ≠ 0) (bs : Bytes) :
    (chunks n bs).length = (bs.length + n - 1) / n := by
  fun_induction chunks n bs with
  | case1 bs h =>
    obtain rfl : bs = [] := h.resolve_right hn
    rw [List.length_nil, List.length_nil, Nat.zero_add, Nat.div_eq_of_lt (by omega)]
  | case2 bs h ih =>
    have hpos : 0 < bs.length := List.length_pos_iff.2 fun h0 => h (.inl h0)
    rw [List.length_cons, ih, List.length_drop]
    rcases Nat.lt_or_ge bs.length n with hlt | hge
    · rw [Nat.sub_eq_zero_of_le (Nat.le_of_lt hlt), Nat.zero_add, Nat.div_eq_of_lt (by omega)]
      exact (Nat.div_eq_of_lt_le (by omega) (by omega)).symm
    · rw [show bs.length + n - 1 = bs.length - n + n - 1 + n by omega, Nat.add_div_right _ (by omega)]

/-- Pieces are no longer than the size they are cut to. -/
theorem Bytes.length_le_of_mem_chunks {n : Nat} {bs piece : Bytes} (h : piece ∈ chunks n bs) : piece.length ≤ n := by
  fun_induction chunks n bs with
  | case1 => cases h
  | case2 bs _ ih =>
    rcases List.mem_cons.1 h with rfl | hrest
    · exact List.length_take_le n bs
    · exact ih hrest

/-- A piece that is full, or behind which nothing comes, is cut off as it is. -/
theorem Bytes.chunks_append {n : Nat} {piece rest : Bytes} (hn : n ≠ 0) (hne : piece ≠ [])
    (h : piece.length = n ∨ piece.length ≤ n ∧ rest = []) :
    chunks n (piece ++ rest) = piece :: chunks n rest := by
  have hpos : piece ++ rest ≠ [] := fun h0 => hne (List.append_eq_nil_iff.1 h0).1
  rw [chunks, dif_neg (by simp [hpos, hn])]
  rcases h with hfull | ⟨hle, rfl⟩
  · rw [List.take_left' hfull, List.drop_left' hfull]
  · rw [List.append_nil, List.take_of_length_le hle, List.drop_of_length_le hle]

namespace Frame

/-- What is sealed of a frame: its header, and its payload in pieces. -/
def pieces (f : Frame) : List Bytes := f.header.bytes :: Bytes.chunks maxPiece f.payload

theorem length_pieces (f : Frame) : f.pieces.length = pieceCount f.payload.length + 1 := by
  rw [pieces, List.length_cons, Bytes.length_chunks (by decide), pieceCount]

/-- No piece of a frame is too long to be sealed. -/
theorem length_le_of_mem_pieces {f : Frame} {piece : Bytes} (h : piece ∈ f.pieces) : piece.length ≤ maxPiece := by
  rcases List.mem_cons.1 h with rfl | hchunk
  · rw [FrameHeader.length_bytes]
    decide
  · exact Bytes.length_le_of_mem_chunks hchunk

/-- A header declares the length of the payload. -/
theorem toNat_payloadLength (f : Frame) : f.header.payloadLength.toNat = f.payload.length :=
  UInt32.toNat_ofNat_of_lt' (Nat.lt_of_le_of_lt f.payload_le (by decide))

theorem payloadLength_le (f : Frame) : f.header.payloadLength.toNat ≤ maxPayloadLength := by
  rw [toNat_payloadLength]
  exact f.payload_le

/-- A frame is made again of what its header says and its payload. -/
theorem make_header (f : Frame) :
    Frame.make f.header.extensionType f.header.messageType f.payload = .ok f :=
  dif_pos ⟨f.payload_le, f.payload_le⟩

/-- A frame is known by its header and its payload. -/
theorem make_eq_ok_iff {f : Frame} {h : FrameHeader} {payload : Bytes}
    (hlen : payload.length = h.payloadLength.toNat) :
    Frame.make h.extensionType h.messageType payload = .ok f ↔ f.header = h ∧ f.payload = payload := by
  constructor
  · intro hmake
    unfold Frame.make at hmake
    split at hmake
    · cases hmake
      have hL : UInt32.ofNat payload.length = h.payloadLength := by rw [hlen, UInt32.ofNat_toNat]
      exact ⟨congrArg (FrameHeader.mk h.extensionType h.messageType) hL, rfl⟩
    · cases hmake
  · rintro ⟨rfl, rfl⟩
    exact f.make_header

end Frame

/-- A cipher takes what is no longer than a piece. -/
theorem takes_piece {piece : Bytes} (h : piece.length ≤ maxPiece) : Aead.Takes piece := Aead.takes_of_le h (by decide)

/-- The pieces of a payload are not too many for the words that they are counted in. -/
theorem Session.toNat_pieces (h : FrameHeader) :
    ((h.payloadLength.toUInt64 + UInt64.ofNat maxPiece - 1) / UInt64.ofNat maxPiece).toNat
      = pieceCount h.payloadLength.toNat := by
  have hlt : h.payloadLength.toNat < 4294967296 := h.payloadLength.toNat_lt
  have hsum : (h.payloadLength.toUInt64 + UInt64.ofNat maxPiece).toNat = h.payloadLength.toNat + maxPiece := by
    rw [UInt64.toNat_add, UInt32.toNat_toUInt64, show (UInt64.ofNat maxPiece).toNat = 65519 from rfl, maxPiece,
      maxNoiseMessage, Aead.tagLength]
    omega
  rw [UInt64.toNat_div, UInt64.toNat_sub_of_le, hsum]
  · rfl
  · rw [UInt64.le_iff_toNat_le, hsum]
    exact Nat.le_add_left 1 _

/-- Nor is the size of an encrypted frame cut off. -/
theorem Session.frameSize_eq (h : FrameHeader) :
    frameSize h = sealedHeaderLength + h.payloadLength.toNat
      + pieceCount h.payloadLength.toNat * Aead.tagLength := by
  have hlt : h.payloadLength.toNat < 4294967296 := h.payloadLength.toNat_lt
  have hle : pieceCount h.payloadLength.toNat ≤ h.payloadLength.toNat := by
    rw [pieceCount, maxPiece, maxNoiseMessage, Aead.tagLength]
    omega
  rw [frameSize, encryptedFrameSize, UInt64.toNat_add, UInt64.toNat_add, UInt64.toNat_mul, toNat_pieces,
    UInt32.toNat_toUInt64, show (UInt64.ofNat sealedHeaderLength).toNat = 22 from rfl,
    show (UInt64.ofNat Aead.tagLength).toNat = 16 from rfl, show sealedHeaderLength = 22 from rfl,
    Aead.tagLength]
  omega

theorem Session.sealedHeaderLength_le_frameSize (h : FrameHeader) : sealedHeaderLength ≤ frameSize h := by
  rw [frameSize_eq, Nat.add_assoc]
  exact Nat.le_add_right _ _

/-! ### Directions -/

namespace Direction

variable (S : Suite) (interval : UInt64)

/-- The direction after one piece more, whatever the piece. -/
def next (d : Direction) : Direction :=
  advance S interval { d with cipher := { d.cipher with nonce := d.cipher.nonce + 1 } }

/-- The direction after a number of pieces. -/
def skip (n : Nat) : Direction → Direction := (next S interval)^[n]

/-- How many pieces can still pass. -/
def room (d : Direction) : Nat := (reservedNonce - d.cipher.nonce).toNat

/-- Pieces sealed one after another. -/
def sealed : Direction → List Bytes → Bytes
  | _, [] => []
  | d, piece :: pieces =>
    S.encrypt d.cipher.key d.cipher.nonce [] piece ++ sealed (d.next S interval) pieces

/-- A frame sealed piece by piece. -/
def sealedFrame (d : Direction) (f : Frame) : Bytes := d.sealed S interval f.pieces

/-- The direction after a frame. -/
def afterFrame (d : Direction) (f : Frame) : Direction := d.skip S interval f.pieces.length

variable {S interval} {d : Direction}

theorem room_eq (d : Direction) : d.room = 18446744073709551615 - d.cipher.nonce.toNat := by
  have hlt : d.cipher.nonce.toNat < 18446744073709551616 := d.cipher.nonce.toNat_lt
  simp [room, reservedNonce, UInt64.toNat_sub]
  omega

theorem room_pos_iff : 0 < d.room ↔ d.cipher.nonce ≠ reservedNonce := by
  have hlt : d.cipher.nonce.toNat < 18446744073709551616 := d.cipher.nonce.toNat_lt
  have hreserved : d.cipher.nonce = reservedNonce ↔ d.cipher.nonce.toNat = 18446744073709551615 :=
    UInt64.toNat_inj.symm
  rw [room_eq, Ne, hreserved]
  omega

@[simp] theorem next_nonce (d : Direction) : (d.next S interval).cipher.nonce = d.cipher.nonce + 1 := by
  simp only [next, advance]
  split <;> rfl

theorem room_next (S : Suite) (interval : UInt64) {d : Direction} (h : 0 < d.room) :
    (d.next S interval).room + 1 = d.room := by
  rw [room_eq] at h ⊢
  rw [room_eq, next_nonce, UInt64.toNat_add, show (1 : UInt64).toNat = 1 from rfl]
  omega

/-- Pieces can pass if the first can, and the others behind it. -/
theorem succ_le_room_iff (S : Suite) (interval : UInt64) {d : Direction} {n : Nat} :
    n + 1 ≤ d.room ↔ 0 < d.room ∧ n ≤ (d.next S interval).room := by
  constructor
  · intro h
    have hpos : 0 < d.room := Nat.zero_lt_of_lt h
    have hnext := room_next S interval hpos
    exact ⟨hpos, by omega⟩
  · rintro ⟨hpos, h⟩
    have hnext := room_next S interval hpos
    omega

theorem skip_succ (n : Nat) (d : Direction) :
    d.skip S interval (n + 1) = (d.next S interval).skip S interval n := rfl

theorem room_skip {n : Nat} (h : n ≤ d.room) : (d.skip S interval n).room + n = d.room := by
  induction n generalizing d with
  | zero => exact Nat.add_zero _
  | succ n ih =>
    obtain ⟨hpos, hrest⟩ := (succ_le_room_iff S interval).1 h
    have hnext := room_next S interval hpos
    have hskip := ih hrest
    rw [skip_succ]
    omega

theorem length_sealed (hS : S.Sealing) (d : Direction) (pieces : List Bytes) :
    (d.sealed S interval pieces).length = pieces.flatten.length + pieces.length * Aead.tagLength := by
  induction pieces generalizing d with
  | nil => simp [sealed]
  | cons piece pieces ih =>
    rw [sealed, List.length_append, hS.length_encrypt, ih, List.flatten_cons, List.length_append,
      List.length_cons, Nat.succ_mul]
    omega

theorem length_encrypt_header (hS : S.Sealing) (key : Key) (nonce : UInt64) (h : FrameHeader) :
    (S.encrypt key nonce [] h.bytes).length = sealedHeaderLength := by
  rw [hS.length_encrypt, FrameHeader.length_bytes, sealedHeaderLength]

/-- **An encrypted frame has the size that its header declares.** -/
theorem length_sealedFrame (hS : S.Sealing) (d : Direction) (f : Frame) :
    (d.sealedFrame S interval f).length = Session.frameSize f.header := by
  rw [sealedFrame, length_sealed hS, Session.frameSize_eq, f.toNat_payloadLength, f.length_pieces,
    Frame.pieces, List.flatten_cons, List.length_append, Bytes.flatten_chunks (by decide),
    FrameHeader.length_bytes, sealedHeaderLength, Nat.succ_mul]
  omega

end Direction

/-! ### Sending -/

namespace Session

variable {S : Suite} {s s' : Session} {f : Frame} {c : Bytes}

theorem checkPoison_of_sound (h : s.poisoned = false) : checkPoison s = .ok () s := by
  show (if s.poisoned = true then _ else _ : SessionM Unit) s = _
  rw [h]
  rfl

theorem checkPoison_of_poisoned (h : s.poisoned = true) :
    checkPoison s = .error (.session .poisoned) s := by
  show (if s.poisoned = true then _ else _ : SessionM Unit) s = _
  rw [h]
  rfl

theorem checkPoison_bind_eq_ok_iff {α : Type} {g : Unit → SessionM α} {a : α} :
    (checkPoison >>= g) s = .ok a s' ↔ s.poisoned = false ∧ g () s = .ok a s' := by
  cases hp : s.poisoned with
  | true =>
    rw [Step.bind_of_error (checkPoison_of_poisoned hp)]
    exact ⟨fun h => (nomatch h), fun h => (nomatch h.1)⟩
  | false =>
    rw [Step.bind_of_ok (checkPoison_of_sound hp)]
    exact ⟨fun h => ⟨rfl, h⟩, fun h => h.2⟩

theorem sealPiece_eq_ok_iff {piece : Bytes} :
    sealPiece S piece s = .ok c s' ↔ 0 < s.sending.room ∧ Aead.Takes piece ∧
      c = S.encrypt s.sending.cipher.key s.sending.cipher.nonce [] piece ∧
        s' = { s with sending := s.sending.next S s.config.rekeyInterval } := by
  unfold sealPiece
  rw [Step.get_bind, Direction.room_pos_iff]
  dsimp only
  constructor
  · intro h
    rcases hsealed : s.sending.cipher.encrypt S [] piece with e | ⟨c', cipher⟩
    · rw [hsealed] at h
      cases h
    · rw [hsealed] at h
      cases h
      obtain ⟨hn, htext, rfl⟩ := KeyedCipher.encrypt_eq_ok_iff.1 hsealed
      obtain ⟨-, htakes, hc⟩ := Suite.sealText_eq_ok_iff.1 htext
      exact ⟨hn, htakes, hc, rfl⟩
  · rintro ⟨hn, htakes, rfl, rfl⟩
    rw [KeyedCipher.encrypt_eq_ok_iff.2 ⟨hn, Suite.sealText_of_takes Aead.takes_nil htakes, rfl⟩]
    rfl

theorem sealPieces_eq_ok_iff {pieces : List Bytes} (htakes : ∀ piece ∈ pieces, Aead.Takes piece) :
    sealPieces S pieces s = .ok c s' ↔ pieces.length ≤ s.sending.room ∧
      c = s.sending.sealed S s.config.rekeyInterval pieces ∧
        s' = { s with sending := s.sending.skip S s.config.rekeyInterval pieces.length } := by
  induction pieces generalizing s c with
  | nil => exact ⟨fun h => by cases h; exact ⟨Nat.zero_le _, rfl, rfl⟩, fun ⟨_, hc, hs⟩ => by rw [hc, hs]; rfl⟩
  | cons piece pieces ih =>
    obtain ⟨hpieceTakes, hrestTakes⟩ := List.forall_mem_cons.1 htakes
    constructor
    · intro h
      obtain ⟨sealed, s₁, hpiece, h⟩ := Step.bind_eq_ok_iff.1 h
      obtain ⟨rest, s₂, hrest, h⟩ := Step.bind_eq_ok_iff.1 h
      cases h
      obtain ⟨hpos, -, rfl, rfl⟩ := sealPiece_eq_ok_iff.1 hpiece
      obtain ⟨hroom, rfl, rfl⟩ := (ih hrestTakes).1 hrest
      exact ⟨(Direction.succ_le_room_iff S s.config.rekeyInterval).2 ⟨hpos, hroom⟩, rfl, rfl⟩
    · rintro ⟨hroom, rfl, rfl⟩
      obtain ⟨hpos, hrest⟩ := (Direction.succ_le_room_iff S s.config.rekeyInterval).1 hroom
      refine Step.bind_eq_ok_iff.2 ⟨_, _, sealPiece_eq_ok_iff.2 ⟨hpos, hpieceTakes, rfl, rfl⟩, ?_⟩
      exact Step.bind_eq_ok_iff.2 ⟨_, _, (ih hrestTakes).2 ⟨hrest, rfl, rfl⟩, rfl⟩

theorem fail_ne_ok {α : Type} {cause : SessionFault} (a : α) (s₁ : Session) :
    (fail cause : SessionM α) s ≠ .ok a s₁ := fun h => nomatch h

theorem poison_ne_ok {α : Type} {cause : SessionFault} (a : α) (s₁ : Session) :
    (poison cause : SessionM α) s ≠ .ok a s₁ := fun h => nomatch h

/-- **What encrypting gives, and when.** -/
theorem encrypt_eq_ok_iff :
    encrypt S f s = .ok c s' ↔ s.poisoned = false ∧ f.payload.length ≤ s.config.maxPayload.toNat ∧
      f.pieces.length ≤ s.sending.room ∧ c = s.sending.sealedFrame S s.config.rekeyInterval f ∧
        s' = { s with sending := s.sending.afterFrame S s.config.rekeyInterval f } := by
  unfold encrypt
  rw [FrameHeader.encode_of_le f.payloadLength_le]
  have htakes : ∀ piece ∈ f.pieces, Aead.Takes piece := fun piece hp => takes_piece (Frame.length_le_of_mem_pieces hp)
  constructor
  · intro h
    obtain ⟨hpoison, h⟩ := checkPoison_bind_eq_ok_iff.1 h
    replace h := Step.get_bind.symm.trans h
    obtain ⟨hcap, h⟩ := (Step.reject_eq_ok_iff fail_ne_ok).1 h
    obtain ⟨hroom, h⟩ := (Step.reject_eq_ok_iff fail_ne_ok).1 h
    obtain ⟨-, hc, hs⟩ := (sealPieces_eq_ok_iff htakes).1 h
    refine ⟨hpoison, Nat.le_of_not_lt hcap, ?_, hc, hs⟩
    rw [f.length_pieces]
    exact Nat.le_of_not_lt hroom
  · rintro ⟨hpoison, hcap, hroom, hc, hs⟩
    refine checkPoison_bind_eq_ok_iff.2 ⟨hpoison, ?_⟩
    refine Step.get_bind.trans ?_
    refine (Step.reject_eq_ok_iff fail_ne_ok).2 ⟨Nat.not_lt.2 hcap, ?_⟩
    refine (Step.reject_eq_ok_iff fail_ne_ok).2 ⟨Nat.not_lt.2 ?_, ?_⟩
    · rw [← f.length_pieces]
      exact hroom
    · exact (sealPieces_eq_ok_iff htakes).2 ⟨hroom, hc, hs⟩

/-- A frame that is not encrypted leaves no trace. -/
theorem state_of_encrypt_eq_error {e : Fault} (h : encrypt S f s = .error e s') : s' = s := by
  cases hpoison : s.poisoned with
  | true =>
    have hfail : encrypt S f s = .error _ s := Step.bind_of_error (checkPoison_of_poisoned hpoison)
    cases hfail.symm.trans h
    rfl
  | false =>
    have hsound := checkPoison_of_sound hpoison
    by_cases hcap : s.config.maxPayload.toNat < f.payload.length
    · have hfail : encrypt S f s = .error _ s :=
        (Step.bind_of_ok hsound).trans (Step.get_bind.trans (Step.reject_of_error hcap rfl))
      cases hfail.symm.trans h
      rfl
    · by_cases hroom : (reservedNonce - s.sending.cipher.nonce).toNat < pieceCount f.payload.length + 1
      · have hfail : encrypt S f s = .error _ s :=
          (Step.bind_of_ok hsound).trans (Step.get_bind.trans
            ((congrFun (if_neg hcap) s).trans (Step.reject_of_error hroom rfl)))
        cases hfail.symm.trans h
        rfl
      · have hok := (encrypt_eq_ok_iff (S := S) (f := f)).2
          ⟨hpoison, Nat.le_of_not_lt hcap, by rw [f.length_pieces]; exact Nat.le_of_not_lt hroom, rfl, rfl⟩
        cases hok.symm.trans h

/-! ### Receiving -/

theorem openPiece_eq_ok_iff {sealed piece : Bytes} :
    openPiece S sealed s = .ok piece s' ↔ 0 < s.receiving.room ∧
      S.openSealed s.receiving.cipher.key s.receiving.cipher.nonce [] sealed = .ok (some piece) ∧
        s' = { s with receiving := s.receiving.next S s.config.rekeyInterval } := by
  unfold openPiece
  rw [Step.get_bind, Direction.room_pos_iff]
  dsimp only
  constructor
  · intro h
    rcases hopened : s.receiving.cipher.decrypt S [] sealed with e | _ | ⟨piece', cipher⟩
    · rw [hopened] at h
      cases h
    · rw [hopened] at h
      exact absurd h (poison_ne_ok _ _)
    · rw [hopened] at h
      cases h
      obtain ⟨hn, htext, rfl⟩ := KeyedCipher.decrypt_eq_ok_iff.1 hopened
      exact ⟨hn, htext, rfl⟩
  · rintro ⟨hn, htext, rfl⟩
    rw [KeyedCipher.decrypt_eq_ok_iff.2 ⟨hn, htext, rfl⟩]
    rfl

/-- What is sealed as a piece opens. -/
theorem openPiece_sealed (hS : S.Sealing) {piece : Bytes} (hlength : piece.length ≤ maxPiece)
    (hroom : 0 < s.receiving.room) :
    openPiece S (S.encrypt s.receiving.cipher.key s.receiving.cipher.nonce [] piece) s
      = .ok piece { s with receiving := s.receiving.next S s.config.rekeyInterval } :=
  openPiece_eq_ok_iff.2
    ⟨hroom, hS.openSealed_of_sealText (Suite.sealText_of_takes Aead.takes_nil (takes_piece hlength)), rfl⟩

/-- And what opens as a piece is that piece, sealed. -/
theorem eq_encrypt_of_openPiece (hS : S.Exact) {sealed piece : Bytes} (h : openPiece S sealed s = .ok piece s') :
    0 < s.receiving.room ∧ sealed = S.encrypt s.receiving.cipher.key s.receiving.cipher.nonce [] piece ∧
      s' = { s with receiving := s.receiving.next S s.config.rekeyInterval } := by
  obtain ⟨hroom, hopen, hs⟩ := openPiece_eq_ok_iff.1 h
  exact ⟨hroom, hS.eq_encrypt (Suite.openSealed_eq_some_iff.1 hopen).2.2.2, hs⟩

theorem openHeader_eq_ok_iff {sealed : Bytes} {h : FrameHeader} :
    openHeader S sealed s = .ok h s' ↔ ∃ bs, openPiece S sealed s = .ok bs s' ∧
      FrameHeader.peek? bs = some h ∧ h.payloadLength ≤ s'.config.maxPayload := by
  constructor
  · intro hopen
    obtain ⟨bs, s₁, hpiece, hrest⟩ := Step.bind_eq_ok_iff.1 hopen
    cases hpeek : FrameHeader.peek? bs with
    | none =>
      rw [hpeek] at hrest
      exact absurd hrest (poison_ne_ok _ _)
    | some h' =>
      rw [hpeek] at hrest
      obtain ⟨hcap, hret⟩ := (Step.reject_eq_ok_iff poison_ne_ok).1 (Step.get_bind.symm.trans hrest)
      cases hret
      exact ⟨bs, hpiece, hpeek, UInt32.not_lt.1 hcap⟩
  · rintro ⟨bs, hpiece, hpeek, hcap⟩
    refine Step.bind_eq_ok_iff.2 ⟨bs, s', hpiece, ?_⟩
    rw [hpeek]
    refine Step.get_bind.trans ?_
    exact (Step.reject_eq_ok_iff poison_ne_ok).2 ⟨UInt32.not_lt.2 hcap, rfl⟩

theorem openPieces_zero (sealed : Bytes) : openPieces S 0 sealed = pure [] := by
  rw [openPieces, dif_pos rfl]

theorem openPieces_eq_ok_iff {left : Nat} {sealed payload : Bytes} (hleft : left ≠ 0) :
    openPieces S left sealed s = .ok payload s' ↔
      min left maxPiece + Aead.tagLength ≤ sealed.length ∧ ∃ piece s₁ rest,
        openPiece S (sealed.take (min left maxPiece + Aead.tagLength)) s = .ok piece s₁ ∧
          openPieces S (left - maxPiece) (sealed.drop (min left maxPiece + Aead.tagLength)) s₁ = .ok rest s' ∧
            payload = piece ++ rest := by
  have htake : (sealed.take (min left maxPiece + Aead.tagLength)).length < min left maxPiece + Aead.tagLength ↔
      ¬ min left maxPiece + Aead.tagLength ≤ sealed.length := by
    rw [List.length_take]
    omega
  rw [openPieces, dif_neg hleft]
  by_cases hlen : min left maxPiece + Aead.tagLength ≤ sealed.length
  · rw [if_neg fun h => htake.1 h hlen]
    constructor
    · intro h
      obtain ⟨piece, s₁, hpiece, h⟩ := Step.bind_eq_ok_iff.1 h
      obtain ⟨rest, s₂, hrest, h⟩ := Step.bind_eq_ok_iff.1 h
      cases h
      exact ⟨hlen, piece, s₁, rest, hpiece, hrest, rfl⟩
    · rintro ⟨-, piece, s₁, rest, hpiece, hrest, rfl⟩
      exact Step.bind_eq_ok_iff.2 ⟨piece, s₁, hpiece, Step.bind_eq_ok_iff.2 ⟨rest, s', hrest, rfl⟩⟩
  · rw [if_pos (htake.2 hlen)]
    exact ⟨fun h => absurd h (poison_ne_ok _ _), fun h => absurd h.1 hlen⟩

/-- The pieces of a payload are opened as they were sealed, whatever follows them. -/
theorem openPieces_sealed (hS : S.Sealing) (payload rest : Bytes)
    (hroom : (Bytes.chunks maxPiece payload).length ≤ s.receiving.room) :
    openPieces S payload.length
        (s.receiving.sealed S s.config.rekeyInterval (Bytes.chunks maxPiece payload) ++ rest) s
      = .ok payload
        { s with
          receiving := s.receiving.skip S s.config.rekeyInterval (Bytes.chunks maxPiece payload).length } := by
  -- One piece for each step of the cut.
  fun_induction Bytes.chunks maxPiece payload generalizing s with
  | case1 payload h =>
    obtain rfl : payload = [] := h.resolve_right (by decide)
    rw [List.length_nil, openPieces_zero]
    rfl
  | case2 payload h ih =>
    have hne : payload.length ≠ 0 := fun h0 => h (.inl (List.length_eq_zero_iff.1 h0))
    obtain ⟨hpos, hroom⟩ := (Direction.succ_le_room_iff S s.config.rekeyInterval).1 hroom
    have hsealed : (S.encrypt s.receiving.cipher.key s.receiving.cipher.nonce [] (payload.take maxPiece)).length
        = min payload.length maxPiece + Aead.tagLength := by
      rw [hS.length_encrypt, List.length_take, Nat.min_comm]
    have hpiece : openPiece S
        (S.encrypt s.receiving.cipher.key s.receiving.cipher.nonce [] (payload.take maxPiece)) s
        = .ok (payload.take maxPiece)
          { s with receiving := s.receiving.next S s.config.rekeyInterval } :=
      openPiece_sealed hS (List.length_take_le ..) hpos
    have hrest := ih (s := { s with receiving := s.receiving.next S s.config.rekeyInterval }) hroom
    refine (openPieces_eq_ok_iff hne).2
      ⟨?_, payload.take maxPiece, { s with receiving := s.receiving.next S s.config.rekeyInterval },
        payload.drop maxPiece, ?_, ?_, ?_⟩
    · rw [Direction.sealed, List.append_assoc, List.length_append, hsealed]
      exact Nat.le_add_right _ _
    · rw [Direction.sealed, List.append_assoc, List.take_left' hsealed]
      exact hpiece
    · rw [Direction.sealed, List.append_assoc, List.drop_left' hsealed, ← List.length_drop]
      exact hrest
    · exact (List.take_append_drop maxPiece payload).symm

/-- What is opened as the pieces of a payload are the pieces of that payload. -/
theorem eq_sealed_of_openPieces (hS : S.Exact) {left : Nat} {sealed payload : Bytes}
    (h : openPieces S left sealed s = .ok payload s') :
    payload.length = left ∧ (Bytes.chunks maxPiece payload).length ≤ s.receiving.room ∧
      (∃ rest, sealed
        = s.receiving.sealed S s.config.rekeyInterval (Bytes.chunks maxPiece payload) ++ rest) ∧
      s' = { s with
        receiving := s.receiving.skip S s.config.rekeyInterval (Bytes.chunks maxPiece payload).length } := by
  -- The receiver counts down the bytes to come, at most a piece at a time.
  induction left using Nat.strongRecOn generalizing s sealed payload with
  | ind left ih =>
    by_cases hleft : left = 0
    · subst hleft
      rw [openPieces_zero] at h
      cases h
      have hnil : Bytes.chunks maxPiece [] = [] := by rw [Bytes.chunks, dif_pos (.inl rfl)]
      rw [hnil]
      exact ⟨rfl, Nat.zero_le _, ⟨sealed, rfl⟩, rfl⟩
    · obtain ⟨hlen, piece, s₁, rest, hpiece, hrest, rfl⟩ := (openPieces_eq_ok_iff hleft).1 h
      obtain ⟨hpos, htake, rfl⟩ := eq_encrypt_of_openPiece hS hpiece
      obtain ⟨hrestLength, hroom, ⟨behind, hbehind⟩, rfl⟩ :=
        ih (left - maxPiece) (Nat.sub_lt (Nat.pos_of_ne_zero hleft) (by decide)) hrest
      have hpieceLength : piece.length = min left maxPiece := by
        have hlength := congrArg List.length htake
        rw [hS.length_encrypt, List.length_take, Nat.min_eq_left hlen] at hlength
        exact (Nat.add_right_cancel hlength).symm
      have hchunks : Bytes.chunks maxPiece (piece ++ rest) = piece :: Bytes.chunks maxPiece rest := by
        have hmax : 0 < maxPiece := by decide
        refine Bytes.chunks_append (Nat.ne_of_gt hmax) ?_ ?_
        · intro h0
          rw [h0, List.length_nil] at hpieceLength
          omega
        · rcases Nat.lt_or_ge left maxPiece with hlt | hge
          · exact .inr ⟨by omega, List.length_eq_zero_iff.1 (by omega)⟩
          · exact .inl (by omega)
      rw [hchunks]
      refine ⟨?_, (Direction.succ_le_room_iff S s.config.rekeyInterval).2 ⟨hpos, hroom⟩, ⟨behind, ?_⟩, rfl⟩
      · rw [List.length_append]
        omega
      · rw [Direction.sealed, List.append_assoc, ← htake, ← hbehind, List.take_append_drop]

theorem openPayload_eq_ok_iff {h : FrameHeader} {sealed : Bytes} :
    openPayload S h sealed s = .ok f s' ↔ ∃ payload,
      openPieces S h.payloadLength.toNat sealed s = .ok payload s' ∧
        Frame.make h.extensionType h.messageType payload = .ok f := by
  constructor
  · intro hopen
    obtain ⟨payload, s₁, hpieces, hmake⟩ := Step.bind_eq_ok_iff.1 hopen
    cases hframe : Frame.make h.extensionType h.messageType payload with
    | error e =>
      rw [hframe] at hmake
      cases hmake
    | ok f' =>
      rw [hframe] at hmake
      cases hmake
      exact ⟨payload, hpieces, hframe⟩
  · rintro ⟨payload, hpieces, hframe⟩
    refine Step.bind_eq_ok_iff.2 ⟨payload, s', hpieces, ?_⟩
    rw [hframe]
    rfl

/-- A header is opened as it was sealed. -/
theorem openHeader_sealed (hS : S.Sealing) (hcap : f.payload.length ≤ s.config.maxPayload.toNat)
    (hroom : 0 < s.receiving.room) :
    openHeader S (S.encrypt s.receiving.cipher.key s.receiving.cipher.nonce [] f.header.bytes) s
      = .ok f.header { s with receiving := s.receiving.next S s.config.rekeyInterval } := by
  have hle : f.header.payloadLength ≤ s.config.maxPayload := by
    rw [UInt32.le_iff_toNat_le, f.toNat_payloadLength]
    exact hcap
  exact openHeader_eq_ok_iff.2 ⟨f.header.bytes,
    openPiece_sealed hS (by rw [FrameHeader.length_bytes]; decide) hroom,
    (FrameHeader.peek?_eq_some_iff f.header.length_bytes).2 ⟨f.payloadLength_le, rfl⟩, hle⟩

/-- A payload is opened as it was sealed. -/
theorem openPayload_sealed (hS : S.Sealing)
    (hroom : (Bytes.chunks maxPiece f.payload).length ≤ s.receiving.room) :
    openPayload S f.header
        (s.receiving.sealed S s.config.rekeyInterval (Bytes.chunks maxPiece f.payload)) s
      = .ok f { s with
          receiving := s.receiving.skip S s.config.rekeyInterval (Bytes.chunks maxPiece f.payload).length } := by
  have hpieces := openPieces_sealed hS f.payload [] hroom
  rw [List.append_nil, ← f.toNat_payloadLength] at hpieces
  exact openPayload_eq_ok_iff.2 ⟨f.payload, hpieces, f.make_header⟩

/-- What opens as a header is a header, sealed. -/
theorem eq_sealed_of_openHeader (hS : S.Exact) {sealed : Bytes} {h : FrameHeader}
    (hlen : sealed.length = sealedHeaderLength) (hopen : openHeader S sealed s = .ok h s') :
    0 < s.receiving.room ∧ h.payloadLength ≤ s.config.maxPayload ∧
      sealed = S.encrypt s.receiving.cipher.key s.receiving.cipher.nonce [] h.bytes ∧
        s' = { s with receiving := s.receiving.next S s.config.rekeyInterval } := by
  obtain ⟨bs, hpiece, hpeek, hcap⟩ := openHeader_eq_ok_iff.1 hopen
  obtain ⟨hroom, hsealed, rfl⟩ := eq_encrypt_of_openPiece hS hpiece
  have hbs : bs.length = frameHeaderLength := by
    rw [hsealed, hS.length_encrypt, sealedHeaderLength] at hlen
    exact Nat.add_right_cancel hlen
  obtain ⟨-, rfl⟩ := (FrameHeader.peek?_eq_some_iff hbs).1 hpeek
  exact ⟨hroom, hcap, hsealed, rfl⟩

/-- A frame is decrypted as it was sealed. -/
theorem decrypt_sealedFrame (hS : S.Sealing) (hpoison : s.poisoned = false) (hpending : s.pendingHeader = none)
    (hcap : f.payload.length ≤ s.config.maxPayload.toNat) (hroom : f.pieces.length ≤ s.receiving.room) :
    decrypt S (s.receiving.sealedFrame S s.config.rekeyInterval f) s
      = .ok f { s with receiving := s.receiving.afterFrame S s.config.rekeyInterval f } := by
  obtain ⟨hpos, hroom⟩ := (Direction.succ_le_room_iff S s.config.rekeyInterval).1 hroom
  have hsize : (s.receiving.sealedFrame S s.config.rekeyInterval f).length = frameSize f.header :=
    Direction.length_sealedFrame hS s.receiving f
  have hheader := Direction.length_encrypt_header hS s.receiving.cipher.key s.receiving.cipher.nonce f.header
  have hlong := sealedHeaderLength_le_frameSize f.header
  unfold decrypt
  refine checkPoison_bind_eq_ok_iff.2 ⟨hpoison, Step.get_bind.trans ?_⟩
  refine (Step.reject_eq_ok_iff fail_ne_ok).2 ⟨by simp [hpending], ?_⟩
  refine (Step.reject_eq_ok_iff poison_ne_ok).2 ⟨by omega, ?_⟩
  refine Step.bind_eq_ok_iff.2
    ⟨f.header, { s with receiving := s.receiving.next S s.config.rekeyInterval }, ?_, ?_⟩
  · rw [Direction.sealedFrame, Frame.pieces, Direction.sealed, List.take_left' hheader]
    exact openHeader_sealed hS hcap hpos
  · refine (Step.reject_eq_ok_iff poison_ne_ok).2 ⟨by omega, ?_⟩
    refine (Step.reject_eq_ok_iff poison_ne_ok).2 ⟨by omega, ?_⟩
    rw [Direction.sealedFrame, Frame.pieces, Direction.sealed, List.drop_left' hheader]
    exact openPayload_sealed (s := { s with receiving := s.receiving.next S s.config.rekeyInterval }) hS hroom

/-- What decrypts to a frame is the frame, sealed. -/
theorem eq_sealedFrame_of_decrypt (hS : S.Exact) (h : decrypt S c s = .ok f s') :
    s.poisoned = false ∧ s.pendingHeader = none ∧ f.payload.length ≤ s.config.maxPayload.toNat ∧
      f.pieces.length ≤ s.receiving.room ∧ c = s.receiving.sealedFrame S s.config.rekeyInterval f ∧
        s' = { s with receiving := s.receiving.afterFrame S s.config.rekeyInterval f } := by
  unfold decrypt at h
  obtain ⟨hpoison, h⟩ := checkPoison_bind_eq_ok_iff.1 h
  obtain ⟨hpending, h⟩ := (Step.reject_eq_ok_iff fail_ne_ok).1 (Step.get_bind.symm.trans h)
  obtain ⟨hshort, h⟩ := (Step.reject_eq_ok_iff poison_ne_ok).1 h
  obtain ⟨header, s₁, hheader, h⟩ := Step.bind_eq_ok_iff.1 h
  obtain ⟨htruncated, h⟩ := (Step.reject_eq_ok_iff poison_ne_ok).1 h
  obtain ⟨htrailing, h⟩ := (Step.reject_eq_ok_iff poison_ne_ok).1 h
  have hsize : c.length = frameSize header :=
    Nat.le_antisymm (Nat.le_of_not_lt htrailing) (Nat.le_of_not_lt htruncated)
  have htake : (c.take sealedHeaderLength).length = sealedHeaderLength :=
    List.length_take_of_le (Nat.le_of_not_lt hshort)
  obtain ⟨hpos, hcap, hsealed, rfl⟩ := eq_sealed_of_openHeader hS htake hheader
  obtain ⟨payload, hpieces, hmake⟩ := openPayload_eq_ok_iff.1 h
  obtain ⟨hlength, hroom, ⟨behind, hbehind⟩, rfl⟩ := eq_sealed_of_openPieces hS hpieces
  obtain ⟨rfl, rfl⟩ := (Frame.make_eq_ok_iff hlength).1 hmake
  have hframe : c = s.receiving.sealedFrame S s.config.rekeyInterval f ++ behind := by
    rw [← List.take_append_drop sealedHeaderLength c, hsealed, hbehind, ← List.append_assoc]
    rfl
  -- The size leaves no room for bytes behind the pieces.
  have hnil : behind = [] := by
    rw [hframe, List.length_append, Direction.length_sealedFrame hS.toSealing] at hsize
    exact List.length_eq_zero_iff.1 (by omega)
  rw [hnil, List.append_nil] at hframe
  refine ⟨hpoison, by simpa using hpending, ?_, ?_, hframe, rfl⟩
  · rw [← f.toNat_payloadLength]
    exact hcap
  · exact (Direction.succ_le_room_iff S s.config.rekeyInterval).2 ⟨hpos, hroom⟩

/-- **What decrypting gives, and when.** A byte string that is accepted is the one encrypted form of its
frame. -/
theorem decrypt_eq_ok_iff (hS : S.Exact) :
    decrypt S c s = .ok f s' ↔ s.poisoned = false ∧ s.pendingHeader = none ∧
      f.payload.length ≤ s.config.maxPayload.toNat ∧ f.pieces.length ≤ s.receiving.room ∧
        c = s.receiving.sealedFrame S s.config.rekeyInterval f ∧
          s' = { s with receiving := s.receiving.afterFrame S s.config.rekeyInterval f } := by
  constructor
  · exact eq_sealedFrame_of_decrypt hS
  · rintro ⟨hpoison, hpending, hcap, hroom, rfl, rfl⟩
    exact decrypt_sealedFrame hS.toSealing hpoison hpending hcap hroom

/-! ### In step -/

/-- A sender and a receiver are in step: they have the same direction, count its pieces alike, and both
can go on. -/
structure InStep (s r : Session) : Prop where
  /-- The cipher and the count are the same. -/
  direction : s.sending = r.receiving
  /-- Both change keys after as many pieces. -/
  interval : s.config.rekeyInterval = r.config.rekeyInterval
  /-- The sender has not failed. -/
  sender : s.poisoned = false
  /-- The receiver has not failed. -/
  receiver : r.poisoned = false
  /-- The receiver is at the start of a frame. -/
  pending : r.pendingHeader = none

/-- Sender and receiver are in step again after a frame that both have taken. -/
theorem InStep.afterFrame {r : Session} (h : InStep s r) (f : Frame) :
    InStep { s with sending := s.sending.afterFrame S s.config.rekeyInterval f }
      { r with receiving := r.receiving.afterFrame S r.config.rekeyInterval f } where
  direction := by
    show s.sending.afterFrame S s.config.rekeyInterval f = r.receiving.afterFrame S r.config.rekeyInterval f
    rw [h.direction, h.interval]
  interval := h.interval
  sender := h.sender
  receiver := h.receiver
  pending := h.pending

/-- **The receiver accepts exactly what the sender produces.** In step, and for a frame within both caps, a
byte string decrypts to the frame if and only if it is what the frame is encrypted to; after both the two
are in step again; and encrypting succeeds as long as the nonces last. -/
theorem decrypt_iff_encrypt (hS : S.Exact) {s r : Session} (h : InStep s r) {f : Frame}
    (hs : f.payload.length ≤ s.config.maxPayload.toNat)
    (hr : f.payload.length ≤ r.config.maxPayload.toNat) :
    (∀ c, ((∃ r', decrypt S c r = .ok f r') ↔ ∃ s', encrypt S f s = .ok c s') ∧
      ∀ s' r', encrypt S f s = .ok c s' → decrypt S c r = .ok f r' → InStep s' r') ∧
    (pieceCount f.payload.length + 1 ≤ (reservedNonce - s.sending.cipher.nonce).toNat →
      ∃ c s', encrypt S f s = .ok c s') := by
  refine ⟨fun c => ⟨⟨?_, ?_⟩, ?_⟩, ?_⟩
  · rintro ⟨r', hd⟩
    obtain ⟨-, -, -, hroom, hc, -⟩ := (decrypt_eq_ok_iff hS).1 hd
    rw [← h.direction] at hroom hc
    rw [← h.interval] at hc
    exact ⟨_, encrypt_eq_ok_iff.2 ⟨h.sender, hs, hroom, hc, rfl⟩⟩
  · rintro ⟨s', he⟩
    obtain ⟨-, -, hroom, hc, -⟩ := encrypt_eq_ok_iff.1 he
    rw [h.direction] at hroom hc
    rw [h.interval] at hc
    exact ⟨_, (decrypt_eq_ok_iff hS).2 ⟨h.receiver, h.pending, hr, hroom, hc, rfl⟩⟩
  · intro s' r' he hd
    obtain ⟨-, -, -, -, rfl⟩ := encrypt_eq_ok_iff.1 he
    obtain ⟨-, -, -, -, -, rfl⟩ := (decrypt_eq_ok_iff hS).1 hd
    exact h.afterFrame f
  · intro hroom
    rw [← f.length_pieces] at hroom
    exact ⟨_, _, encrypt_eq_ok_iff.2 ⟨h.sender, hs, hroom, rfl, rfl⟩⟩

namespace Sample

/-- A sender that changes its key after every second piece, so also between a header and its payload. -/
def sender : Session where
  role := .initiator
  sending := ⟨.ofKey (.replicate 32 7), 1⟩
  receiving := .ofCipher (.ofKey (.replicate 32 8))
  hash := .replicate 32 0
  config := { rekeyInterval := 2 }

/-- Its receiver. -/
def receiver : Session :=
  { sender with role := .responder, sending := sender.receiving, receiving := sender.sending }

/-- A frame with three bytes of payload. -/
def frame : Frame := ⟨0, 1, [1, 2, 3], by decide⟩

end Sample

open Sample in
/-- On the suite of the protocol, the sender's frame reaches the receiver. -/
theorem decrypt_iff_encrypt_on_sample :
    ∃ c s' r', encrypt Suite.standard frame sender = .ok c s' ∧
      decrypt Suite.standard c receiver = .ok frame r' ∧ InStep s' r' := by
  have hstep : InStep sender receiver := ⟨rfl, rfl, rfl, rfl, rfl⟩
  obtain ⟨hboth, hnonces⟩ := decrypt_iff_encrypt Suite.standard_exact hstep (f := frame) (by decide) (by decide)
  obtain ⟨c, s', he⟩ := hnonces (by decide)
  obtain ⟨r', hd⟩ := (hboth c).1.2 ⟨s', he⟩
  exact ⟨c, s', r', he, hd, (hboth c).2 s' r' he hd⟩

end Session

end Stratum
