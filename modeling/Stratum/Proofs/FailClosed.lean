import Stratum.Proofs.FrameDecoding
import Stratum.Proofs.HandshakeRuns
import Stratum.Proofs.PieceRecord
import Stratum.Proofs.Streaming

/-!
# Failing closed

A receiver may fail when it has opened part of a frame: at the cap, at the length, at a tag
of any piece, or because no nonce is left. Only most of these poison the session. This module
shows that none of them lets a frame through afterwards.

* `Session.Opens m`: a step `m` that opens pieces leaves the marks of the session as they are
  when it succeeds, and when it fails it `Breaks` the session: it poisons it, or no nonce is
  left for receiving. Sequences of such steps are such steps.
* `Session.decrypt_eq_error`, `Session.read_eq_error`: a call that fails leaves the session
  `Closed`, the refusal to decrypt while a frame is partly read apart.
* `Session.Closed.act`: a closed session stays closed, whatever is done to it, and
  gives no frame.
* **`Session.fails_closed`**: so it is in every session that there can be
  (`Session.Reachable`); a poisoned one refuses everything, and what is refused changes nothing.
-/

namespace Stratum

/-- A header that is read declares a payload that a frame can have. -/
theorem FrameHeader.payloadLength_le_of_peek? {bs : Bytes} {h : FrameHeader} (hpeek : peek? bs = some h) :
    h.payloadLength.toNat ≤ maxPayloadLength :=
  (peek?_eq_some_iff_append.1 hpeek).1

namespace Session

variable {S : Suite} {s s' : Session} {e : Fault} {data : Bytes}

/-! ### Reading, case by case -/

/-- Reads what a header declares. -/
def readBehind (S : Suite) (h : FrameHeader) (data : Bytes) : SessionM ReadStep :=
  if data.length < frameSize h then return .incomplete (frameSize h - data.length)
  else do
    modify fun s => { s with pendingHeader := none }
    let f ← openPayload S h ((data.drop sealedHeaderLength).take (frameSize h - sealedHeaderLength))
    return .frame f (frameSize h)

theorem readBehind_of_short {h : FrameHeader} (hlen : data.length < frameSize h) :
    readBehind S h data s = .ok (.incomplete (frameSize h - data.length)) s := by
  rw [readBehind, if_pos hlen]
  rfl

theorem readBehind_of_long {h : FrameHeader} (hlen : frameSize h ≤ data.length) :
    readBehind S h data s
      = (openPayload S h ((data.drop sealedHeaderLength).take (frameSize h - sealedHeaderLength)) >>= fun f =>
          pure (.frame f (frameSize h))) { s with pendingHeader := none } := by
  rw [readBehind, if_neg (Nat.not_lt.2 hlen)]
  rfl

theorem read_of_poisoned (hpoison : s.poisoned = true) : read S data s = .error (.session .poisoned) s :=
  Step.bind_of_error (checkPoison_of_poisoned hpoison)

/-- A header that is kept is not opened again. -/
theorem read_of_pending {h : FrameHeader} (hpoison : s.poisoned = false) (hpending : s.pendingHeader = some h) :
    read S data s = readBehind S h data s := by
  refine read_of_currentHeader hpoison (Step.get_bind.trans ?_)
  rw [hpending]
  rfl

/-- Before there is a header, the one at the start of the bytes is opened. -/
theorem currentHeader_of_none (hpending : s.pendingHeader = none) (hlen : sealedHeaderLength ≤ data.length) :
    currentHeader S data s = (openHeader S (data.take sealedHeaderLength) >>= fun h => do
      modify fun s => { s with pendingHeader := some h }
      return some h) s := by
  refine Step.get_bind.trans ?_
  rw [hpending]
  exact congrFun (if_neg (Nat.not_lt.2 hlen)) s

theorem read_of_openHeader {h : FrameHeader} (hpoison : s.poisoned = false) (hpending : s.pendingHeader = none)
    (hlen : sealedHeaderLength ≤ data.length) (hopen : openHeader S (data.take sealedHeaderLength) s = .ok h s') :
    read S data s = readBehind S h data { s' with pendingHeader := some h } :=
  read_of_currentHeader hpoison ((currentHeader_of_none hpending hlen).trans (Step.bind_of_ok hopen))

theorem read_of_openHeader_error (hpoison : s.poisoned = false) (hpending : s.pendingHeader = none)
    (hlen : sealedHeaderLength ≤ data.length) (hopen : openHeader S (data.take sealedHeaderLength) s = .error e s') :
    read S data s = .error e s' :=
  (Step.bind_of_ok (checkPoison_of_sound hpoison)).trans
    (Step.bind_of_error ((currentHeader_of_none hpending hlen).trans (Step.bind_of_error hopen)))

/-! ### Steps that open pieces -/

/-- How opening pieces can fail. -/
inductive Breaks (s : Session) : Fault → Session → Prop where
  /-- The session is poisoned. -/
  | poisoned {e : Fault} {s' : Session} (kind : e.kind = .decryptionFailed ∨ e.kind = .payloadTooLarge)
      (poisoned : s'.poisoned = true) (pending : s'.pendingHeader = none) : Breaks s e s'
  /-- No nonce is left. -/
  | exhausted {s' : Session} (room : s'.receiving.room = 0) (poisoned : s'.poisoned = s.poisoned)
      (pending : s'.pendingHeader = s.pendingHeader) : Breaks s (.session .receiveNonce) s'

/-- A step that opens pieces. -/
structure Opens {α : Type} (m : SessionM α) : Prop where
  /-- When it succeeds it leaves the marks of the session as they are. -/
  keeps : ∀ {s a s'}, m s = .ok a s' → s'.poisoned = s.poisoned ∧ s'.pendingHeader = s.pendingHeader
  /-- When it fails the session is broken. -/
  breaks : ∀ {s e s'}, m s = .error e s' → Breaks s e s'

theorem Breaks.of_kept {s₁ : Session} (h : Breaks s₁ e s') (hpoison : s₁.poisoned = s.poisoned)
    (hpending : s₁.pendingHeader = s.pendingHeader) : Breaks s e s' := by
  cases h with
  | poisoned kind poisoned pending => exact .poisoned kind poisoned pending
  | exhausted room poisoned pending => exact .exhausted room (poisoned.trans hpoison) (pending.trans hpending)

namespace Opens

variable {α β : Type}

theorem pure (a : α) : Opens (Pure.pure a : SessionM α) where
  keeps h := by
    cases h
    exact ⟨rfl, rfl⟩
  breaks h := nomatch h

theorem bind {m : SessionM α} {f : α → SessionM β} (hm : Opens m) (hf : ∀ a, Opens (f a)) : Opens (m >>= f) where
  keeps h := by
    obtain ⟨a, s₁, hfirst, hsecond⟩ := Step.bind_eq_ok_iff.1 h
    obtain ⟨hpoison, hpending⟩ := hm.keeps hfirst
    obtain ⟨hpoison', hpending'⟩ := (hf a).keeps hsecond
    exact ⟨hpoison'.trans hpoison, hpending'.trans hpending⟩
  breaks h := by
    rcases Step.bind_eq_error_iff.1 h with hfirst | ⟨a, s₁, hfirst, hsecond⟩
    · exact hm.breaks hfirst
    · obtain ⟨hpoison, hpending⟩ := hm.keeps hfirst
      exact ((hf a).breaks hsecond).of_kept hpoison hpending

theorem poison {cause : SessionFault} (hkind : cause.kind = .decryptionFailed ∨ cause.kind = .payloadTooLarge) :
    Opens (Session.poison cause : SessionM α) where
  keeps h := absurd h (poison_ne_ok _ _)
  breaks h := by
    cases h
    exact .poisoned hkind rfl rfl

/-- A step under a condition, or another. -/
theorem ite {c : Prop} [Decidable c] {m m' : SessionM α} (hm : Opens m) (hm' : Opens m') :
    Opens (if c then m else m') := by
  split
  · exact hm
  · exact hm'

end Opens

theorem opens_openPiece {sealed : Bytes} (hsealed : Aead.Takes sealed) : Opens (openPiece S sealed) where
  keeps h := by
    obtain ⟨-, -, rfl⟩ := openPiece_eq_ok_iff.1 h
    exact ⟨rfl, rfl⟩
  breaks {s e s'} h := by
    obtain ⟨opened, hopened⟩ := S.exists_openSealed s.receiving.cipher.key s.receiving.cipher.nonce Aead.takes_nil
      hsealed
    unfold openPiece KeyedCipher.decrypt at h
    replace h := Step.get_bind.symm.trans h
    dsimp only at h
    by_cases hn : s.receiving.cipher.nonce = reservedNonce
    · rw [if_pos hn] at h
      cases h
      have hroom : ¬ 0 < s.receiving.room := fun hpos => Direction.room_pos_iff.1 hpos hn
      exact .exhausted (by omega) rfl rfl
    · rw [if_neg hn, hopened] at h
      cases opened with
      | none => exact (Opens.poison (.inl rfl)).breaks h
      | some text => cases h

theorem opens_openHeader (data : Bytes) : Opens (openHeader S (data.take sealedHeaderLength)) := by
  have htakes : Aead.Takes (data.take sealedHeaderLength) := Aead.takes_of_le (List.length_take_le ..) (by decide)
  refine (opens_openPiece htakes).bind fun bs => ?_
  cases FrameHeader.peek? bs with
  | none => exact .poison (.inl rfl)
  | some h =>
    constructor
    · intro s a s' hok
      obtain ⟨-, hret⟩ := (Step.reject_eq_ok_iff poison_ne_ok).1 (Step.get_bind.symm.trans hok)
      exact (Opens.pure h).keeps hret
    · intro s e s' herror
      rcases (Step.reject_eq_error_iff poison_ne_ok).1 (Step.get_bind.symm.trans herror) with
        ⟨-, hpoison⟩ | ⟨-, hret⟩
      · exact (Opens.poison (α := Unit) (.inr rfl)).breaks hpoison
      · cases hret

theorem opens_openPieces (left : Nat) (sealed : Bytes) : Opens (openPieces S left sealed) := by
  induction left using Nat.strongRecOn generalizing sealed with
  | ind left ih =>
    rw [openPieces]
    by_cases hleft : left = 0
    · rw [dif_pos hleft]
      exact .pure []
    · rw [dif_neg hleft]
      refine .ite (.poison (.inl rfl)) ?_
      have htakes : Aead.Takes (sealed.take (min left maxPiece + Aead.tagLength)) :=
        Aead.takes_of_le (Nat.le_trans (List.length_take_le ..) (Nat.add_le_add_right (Nat.min_le_right ..) _))
          (by decide)
      refine (opens_openPiece htakes).bind fun piece => ?_
      refine (ih (left - maxPiece) (Nat.sub_lt (Nat.pos_of_ne_zero hleft) (by decide)) _).bind fun rest => ?_
      exact .pure _

theorem openPayload_keeps {h : FrameHeader} {sealed : Bytes} {f : Frame}
    (hopen : openPayload S h sealed s = .ok f s') :
    s'.poisoned = s.poisoned ∧ s'.pendingHeader = s.pendingHeader := by
  obtain ⟨payload, hpieces, -⟩ := openPayload_eq_ok_iff.1 hopen
  exact (opens_openPieces _ _).keeps hpieces

/-- A payload is as long as its header declares, so that it always makes a frame. -/
theorem opens_openPayload (hS : S.Exact) {h : FrameHeader} (hle : h.payloadLength.toNat ≤ maxPayloadLength)
    (sealed : Bytes) : Opens (openPayload S h sealed) where
  keeps := openPayload_keeps
  breaks herror := by
    rcases Step.bind_eq_error_iff.1 herror with hpieces | ⟨payload, s₁, hpieces, hmake⟩
    · exact (opens_openPieces _ _).breaks hpieces
    · obtain ⟨hlength, -⟩ := eq_sealed_of_openPieces hS hpieces
      have hcap : h.payloadLength ≤ ({} : FrameLimits).maxPayload := hle
      obtain ⟨f, hframe, -⟩ := Frame.exists_make hlength hle hcap
      rw [hframe] at hmake
      cases hmake

/-! ### What a failed call leaves -/

/-- A session whose marks fit together. -/
structure Coherent (s : Session) : Prop where
  /-- A header that is kept declares a payload that a frame can have. -/
  pending_le : ∀ h, s.pendingHeader = some h → h.payloadLength.toNat ≤ maxPayloadLength
  /-- A poisoned session keeps no header. -/
  pending_none : s.poisoned = true → s.pendingHeader = none

/-- A session that reads no frame and can begin none. -/
structure Closed (s : Session) : Prop where
  /-- No frame is partly read. -/
  pending : s.pendingHeader = none
  /-- It is poisoned, or no nonce is left for the header of another. -/
  shut : s.poisoned = true ∨ s.receiving.room = 0

/-- What a call leaves that has failed for good. -/
structure FailsClosed (e : Fault) (s' : Session) : Prop where
  /-- The caller made no mistake. -/
  kind_ne : e.kind ≠ .invalidArgument
  /-- The session is closed. -/
  closed : s'.Closed
  /-- If the bytes were to blame, it is poisoned. -/
  poisoned : e.kind = .decryptionFailed ∨ e.kind = .payloadTooLarge → s'.poisoned = true

theorem Coherent.of_none (hpending : s.pendingHeader = none) : Coherent s where
  pending_le h hsome := by cases hpending.symm.trans hsome
  pending_none _ := hpending

theorem Breaks.failsClosed (h : Breaks s e s') (hpending : s.pendingHeader = none) : FailsClosed e s' := by
  cases h with
  | poisoned kind poisoned pending =>
    refine ⟨?_, ⟨pending, .inl poisoned⟩, fun _ => poisoned⟩
    rcases kind with hkind | hkind <;> simp [hkind]
  | exhausted room _ pending =>
    refine ⟨nofun, ⟨pending.trans hpending, .inr room⟩, ?_⟩
    rintro (hkind | hkind) <;> cases hkind

theorem failsClosed_of_poisoned (hs : s.Coherent) (hpoison : s.poisoned = true) :
    FailsClosed (.session .poisoned) s where
  kind_ne := nofun
  closed := ⟨hs.pending_none hpoison, .inl hpoison⟩
  poisoned _ := hpoison

theorem decrypt_of_poisoned (hpoison : s.poisoned = true) : decrypt S data s = .error (.session .poisoned) s :=
  Step.bind_of_error (checkPoison_of_poisoned hpoison)

/-- While a frame is partly read, decrypting is refused. -/
theorem decrypt_of_pending (hpoison : s.poisoned = false) (hpending : s.pendingHeader.isSome = true) :
    decrypt S data s = .error (.session .readPending) s := by
  refine (Step.bind_of_ok (checkPoison_of_sound hpoison)).trans ?_
  exact Step.get_bind.trans (Step.reject_of_error hpending rfl)

/-- **Decrypting fails for good**, or it is refused while a frame is partly read. -/
theorem decrypt_eq_error (hS : S.Exact) (hs : s.Coherent) (h : decrypt S data s = .error e s') :
    FailsClosed e s' ∨
      e = .session .readPending ∧ s' = s ∧ s.poisoned = false ∧ s.pendingHeader.isSome = true := by
  cases hpoison : s.poisoned with
  | true =>
    cases (decrypt_of_poisoned hpoison).symm.trans h
    exact .inl (failsClosed_of_poisoned hs hpoison)
  | false =>
    unfold decrypt at h
    replace h := (Step.bind_of_ok (checkPoison_of_sound hpoison)).symm.trans h
    rcases (Step.reject_eq_error_iff fail_ne_ok).1 (Step.get_bind.symm.trans h) with ⟨hsome, hfail⟩ | ⟨hnone, h⟩
    · cases hfail
      exact .inr ⟨rfl, rfl, rfl, hsome⟩
    · -- From here on no frame is partly read, so that whatever breaks the session closes it.
      have hpending : s.pendingHeader = none := by simpa using hnone
      refine .inl ?_
      have hpoisons {cause : SessionFault} {s₁ : Session} (hkind : cause.kind = .decryptionFailed)
          (hpending : s₁.pendingHeader = none) (hfail : (poison cause : SessionM Unit) s₁ = .error e s') :
          FailsClosed e s' :=
        ((Opens.poison (.inl hkind)).breaks hfail).failsClosed hpending
      rcases (Step.reject_eq_error_iff poison_ne_ok).1 h with ⟨-, hfail⟩ | ⟨-, h⟩
      · exact hpoisons rfl hpending hfail
      · rcases Step.bind_eq_error_iff.1 h with hopen | ⟨header, s₁, hopen, h⟩
        · exact ((opens_openHeader _).breaks hopen).failsClosed hpending
        · have hpending₁ := ((opens_openHeader _).keeps hopen).2.trans hpending
          obtain ⟨bs, -, hpeek, -⟩ := openHeader_eq_ok_iff.1 hopen
          rcases (Step.reject_eq_error_iff poison_ne_ok).1 h with ⟨-, hfail⟩ | ⟨-, h⟩
          · exact hpoisons rfl hpending₁ hfail
          · rcases (Step.reject_eq_error_iff poison_ne_ok).1 h with ⟨-, hfail⟩ | ⟨-, h⟩
            · exact hpoisons rfl hpending₁ hfail
            · have hopens := opens_openPayload hS (FrameHeader.payloadLength_le_of_peek? hpeek)
              exact ((hopens _).breaks h).failsClosed hpending₁

/-- Reading what a header declares fails for good. -/
theorem readBehind_eq_error (hS : S.Exact) {h : FrameHeader} (hle : h.payloadLength.toNat ≤ maxPayloadLength)
    (hread : readBehind S h data s = .error e s') : FailsClosed e s' := by
  rcases Nat.lt_or_ge data.length (frameSize h) with hshort | hlong
  · cases (readBehind_of_short hshort).symm.trans hread
  · rcases Step.bind_eq_error_iff.1 ((readBehind_of_long hlong).symm.trans hread) with hopen | ⟨_, _, -, hret⟩
    · exact ((opens_openPayload hS hle _).breaks hopen).failsClosed rfl
    · cases hret

/-- **Reading fails for good.** -/
theorem read_eq_error (hS : S.Exact) (hs : s.Coherent) (h : read S data s = .error e s') : FailsClosed e s' := by
  cases hpoison : s.poisoned with
  | true =>
    cases (read_of_poisoned hpoison).symm.trans h
    exact failsClosed_of_poisoned hs hpoison
  | false =>
    cases hpending : s.pendingHeader with
    | some header =>
      exact readBehind_eq_error hS (hs.pending_le _ hpending) ((read_of_pending hpoison hpending).symm.trans h)
    | none =>
      rcases Nat.lt_or_ge data.length sealedHeaderLength with hshort | hlong
      · cases (read_of_short hpoison hpending hshort).symm.trans h
      · cases hopen : openHeader S (data.take sealedHeaderLength) s with
        | error cause s₁ =>
          cases (read_of_openHeader_error hpoison hpending hlong hopen).symm.trans h
          exact ((opens_openHeader _).breaks hopen).failsClosed hpending
        | ok header s₁ =>
          obtain ⟨bs, -, hpeek, -⟩ := openHeader_eq_ok_iff.1 hopen
          exact readBehind_eq_error hS (FrameHeader.payloadLength_le_of_peek? hpeek)
            ((read_of_openHeader hpoison hpending hlong hopen).symm.trans h)

/-! ### What a call that succeeds leaves -/

theorem Coherent.of_readBehind {h : FrameHeader} {step : ReadStep} (hs : s.Coherent)
    (hread : readBehind S h data s = .ok step s') : s'.Coherent := by
  rcases Nat.lt_or_ge data.length (frameSize h) with hshort | hlong
  · cases (readBehind_of_short hshort).symm.trans hread
    exact hs
  · obtain ⟨f, s₁, hopen, hret⟩ := Step.bind_eq_ok_iff.1 ((readBehind_of_long hlong).symm.trans hread)
    cases hret
    exact .of_none (openPayload_keeps hopen).2

theorem Coherent.of_read {step : ReadStep} (hs : s.Coherent) (hread : read S data s = .ok step s') :
    s'.Coherent := by
  cases hpoison : s.poisoned with
  | true => cases (read_of_poisoned hpoison).symm.trans hread
  | false =>
    cases hpending : s.pendingHeader with
    | some header => exact hs.of_readBehind ((read_of_pending hpoison hpending).symm.trans hread)
    | none =>
      rcases Nat.lt_or_ge data.length sealedHeaderLength with hshort | hlong
      · cases (read_of_short hpoison hpending hshort).symm.trans hread
        exact hs
      · cases hopen : openHeader S (data.take sealedHeaderLength) s with
        | error e s₁ => cases (read_of_openHeader_error hpoison hpending hlong hopen).symm.trans hread
        | ok header s₁ =>
          obtain ⟨bs, -, hpeek, -⟩ := openHeader_eq_ok_iff.1 hopen
          have hsound : s₁.poisoned = false := ((opens_openHeader _).keeps hopen).1.trans hpoison
          have hs₁ : Coherent { s₁ with pendingHeader := some header } := by
            refine ⟨fun h hsome => ?_, fun hpoisoned => ?_⟩
            · cases hsome
              exact FrameHeader.payloadLength_le_of_peek? hpeek
            · cases hsound.symm.trans hpoisoned
          exact hs₁.of_readBehind ((read_of_openHeader hpoison hpending hlong hopen).symm.trans hread)

/-- A closed session waits for a header at best. -/
theorem Closed.read_eq_ok {step : ReadStep} (hs : s.Closed) (hread : read S data s = .ok step s') :
    (∃ needed, step = .incomplete needed) ∧ s' = s := by
  have hpoison := (checkPoison_bind_eq_ok_iff.1 hread).1
  have hroom : s.receiving.room = 0 := hs.shut.resolve_left (by simp [hpoison])
  rcases Nat.lt_or_ge data.length sealedHeaderLength with hshort | hlong
  · cases (read_of_short hpoison hs.pending hshort).symm.trans hread
    exact ⟨⟨_, rfl⟩, rfl⟩
  · cases hopen : openHeader S (data.take sealedHeaderLength) s with
    | error e s₁ => cases (read_of_openHeader_error hpoison hs.pending hlong hopen).symm.trans hread
    | ok header s₁ =>
      obtain ⟨bs, hpiece, -⟩ := openHeader_eq_ok_iff.1 hopen
      exact absurd (openPiece_eq_ok_iff.1 hpiece).1 (by omega)

theorem Closed.decrypt_ne_ok {f : Frame} (hs : s.Closed) : decrypt S data s ≠ .ok f s' := by
  intro h
  unfold decrypt at h
  obtain ⟨hpoison, h⟩ := checkPoison_bind_eq_ok_iff.1 h
  obtain ⟨-, h⟩ := (Step.reject_eq_ok_iff fail_ne_ok).1 (Step.get_bind.symm.trans h)
  obtain ⟨-, h⟩ := (Step.reject_eq_ok_iff poison_ne_ok).1 h
  obtain ⟨header, s₁, hheader, -⟩ := Step.bind_eq_ok_iff.1 h
  obtain ⟨bs, hpiece, -⟩ := openHeader_eq_ok_iff.1 hheader
  have hroom : s.receiving.room = 0 := hs.shut.resolve_left (by simp [hpoison])
  exact absurd (openPiece_eq_ok_iff.1 hpiece).1 (by omega)

/-! ### What can be done to a session -/

/-- What can be done to a session. -/
inductive Act where
  /-- A call of one of its operations. -/
  | call (c : Call)
  /-- Its next nonce for sending is set. -/
  | setSendNonce (n : UInt64)

/-- A call that receives. -/
def Call.receives : Call → Bool
  | encrypt _ => false
  | decrypt _ | read _ => true

/-- The frame that an answer gives. -/
def Answer.frame? : Answer → Option Frame
  | decrypted f | step (.frame f _) => some f
  | encrypted _ | step (.incomplete _) => none

section Acts

variable (S : Suite)

/-- The session after something is done to it, whether it succeeds or fails. -/
def act (s : Session) : Act → Session
  | .call c => RecordM.after (Session.call S c s)
  | .setSendNonce n => setSendNonce n s

/-- The session after one thing after another is done to it. -/
def acts (s : Session) (as : List Act) : Session := as.foldl (act S) s

/-- The sessions that there can be: those that a handshake hands out, and what becomes of them. -/
inductive Reachable : Session → Prop where
  /-- A handshake hands it out. -/
  | handedOut {s : Session} (handed : Handshake.HandsOut S s) : Reachable s
  /-- Something is done to one that there can be. -/
  | act {s : Session} (before : Reachable s) (a : Act) : Reachable (s.act S a)

/-- Whatever is done to it, the session gives no frame any more. -/
def GivesNoFrame (s : Session) : Prop :=
  ∀ (as : List Act) (c : Call) (answer : Answer) (s' : Session),
    call S c (s.acts S as) = .ok answer s' → answer.frame? = none

/-- Whatever is done to it, the session fails every call as a failed decryption, and no call changes it. -/
def RefusesAll (s : Session) : Prop :=
  ∀ (as : List Act) (c : Call), ∃ e : Fault, e.kind = .decryptionFailed ∧
    call S c (s.acts S as) = .error e (s.acts S as)

/-- A frame is partly read, and the session reads it as soon as its payload is there: whatever payload of
the length declared the peer has sealed, whatever stands where the header was, and whatever follows. -/
def Completable (s : Session) : Prop :=
  ∃ h, s.pendingHeader = some h ∧ ∀ payload : Bytes, payload.length = h.payloadLength.toNat →
    (Bytes.chunks maxPiece payload).length ≤ s.receiving.room →
      ∃ f : Frame, f.header = h ∧ f.payload = payload ∧ ∀ front behind : Bytes, front.length = sealedHeaderLength →
        read S (front ++ s.receiving.sealed S s.config.rekeyInterval (Bytes.chunks maxPiece payload) ++ behind) s
          = .ok (.frame f (frameSize h)) { s with
              receiving := s.receiving.skip S s.config.rekeyInterval (Bytes.chunks maxPiece payload).length
              pendingHeader := none }

end Acts

/-- What becomes of a session by a call is what the call leaves, when it succeeds and when it fails. -/
theorem act_call {P : Session → Prop} {c : Call} (hok : ∀ answer s', call S c s = .ok answer s' → P s')
    (herror : ∀ e s', call S c s = .error e s' → P s') : P (s.act S (.call c)) := by
  show P (RecordM.after (Session.call S c s))
  cases h : Session.call S c s with
  | ok answer s' => exact hok answer s' h
  | error e s' => exact herror e s' h

/-- What holds on whatever is done to a session holds after everything that is done to it. -/
theorem acts_keeps {P : Session → Prop} (hact : ∀ {s : Session} (a : Act), P s → P (s.act S a)) (hs : P s)
    (as : List Act) : P (s.acts S as) := by
  induction as generalizing s with
  | nil => exact hs
  | cons a as ih => exact ih (hact a hs)

/-- What holds on when something is sent, when something is received and when receiving fails for good holds
on whatever is done to a session. -/
theorem act_keeps {P : Session → Prop} (hS : S.Exact) (hs : s.Coherent) (hold : P s)
    (hsend : ∀ sending, P { s with sending })
    (hdecrypt : ∀ data f s', decrypt S data s = .ok f s' → P s')
    (hread : ∀ data step s', read S data s = .ok step s' → P s')
    (hfails : ∀ e s', FailsClosed e s' → P s') (a : Act) : P (s.act S a) := by
  cases a with
  | setSendNonce n => exact hsend _
  | call c =>
    cases c with
    | encrypt f =>
      refine act_call (fun answer s' h => ?_) fun e s' h => ?_
      · obtain ⟨bs, hencrypt, -⟩ := Step.map_eq_ok_iff.1 h
        obtain ⟨-, -, -, -, rfl⟩ := encrypt_eq_ok_iff.1 hencrypt
        exact hsend _
      · obtain rfl := state_of_encrypt_eq_error (Step.map_eq_error_iff.1 h)
        exact hold
    | decrypt data =>
      refine act_call (fun answer s' h => ?_) fun e s' h => ?_
      · obtain ⟨f, hok, -⟩ := Step.map_eq_ok_iff.1 h
        exact hdecrypt data f s' hok
      · rcases decrypt_eq_error hS hs (Step.map_eq_error_iff.1 h) with hclosed | ⟨-, rfl, -, -⟩
        · exact hfails e s' hclosed
        · exact hold
    | read data =>
      refine act_call (fun answer s' h => ?_) fun e s' h => ?_
      · obtain ⟨step, hok, -⟩ := Step.map_eq_ok_iff.1 h
        exact hread data step s' hok
      · exact hfails e s' (read_eq_error hS hs (Step.map_eq_error_iff.1 h))

/-! ### Poisoned sessions -/

theorem call_of_poisoned (hpoison : s.poisoned = true) (c : Call) : call S c s = .error (.session .poisoned) s := by
  have hcheck := checkPoison_of_poisoned hpoison
  cases c with
  | encrypt f => exact Step.map_eq_error_iff.2 (Step.bind_of_error hcheck)
  | decrypt data => exact Step.map_eq_error_iff.2 (Step.bind_of_error hcheck)
  | read data => exact Step.map_eq_error_iff.2 (Step.bind_of_error hcheck)

theorem poisoned_act (hpoison : s.poisoned = true) (a : Act) : (s.act S a).poisoned = true := by
  cases a with
  | call c =>
    show (RecordM.after (Session.call S c s)).poisoned = true
    rw [call_of_poisoned hpoison]
    exact hpoison
  | setSendNonce n => exact hpoison

/-- **A poisoned session refuses everything**, for good. -/
theorem refusesAll_of_poisoned (hpoison : s.poisoned = true) : s.RefusesAll S := by
  intro as c
  have hpoisoned := acts_keeps (S := S) (P := fun s => s.poisoned = true) (fun a h => poisoned_act h a) hpoison as
  exact ⟨.session .poisoned, rfl, call_of_poisoned hpoisoned c⟩

/-! ### Closed sessions -/

/-- **A closed session stays closed**, whatever is done to it. -/
theorem Closed.act (hS : S.Exact) (hs : s.Closed) (a : Act) : (s.act S a).Closed := by
  refine act_keeps hS (.of_none hs.pending) hs (fun sending => ⟨hs.pending, hs.shut⟩)
    (fun data f s' h => absurd h hs.decrypt_ne_ok) (fun data step s' h => ?_) (fun e s' h => h.closed) a
  obtain ⟨-, rfl⟩ := hs.read_eq_ok h
  exact hs

/-- **A closed session gives no frame**, whatever is done to it. -/
theorem Closed.givesNoFrame (hS : S.Exact) (hs : s.Closed) : s.GivesNoFrame S := by
  intro as c answer s' h
  have hclosed : (s.acts S as).Closed := acts_keeps (fun a h => h.act hS a) hs as
  cases c with
  | encrypt f =>
    obtain ⟨bs, -, rfl⟩ := Step.map_eq_ok_iff.1 h
    rfl
  | decrypt data =>
    obtain ⟨f, hdecrypt, -⟩ := Step.map_eq_ok_iff.1 h
    exact absurd hdecrypt hclosed.decrypt_ne_ok
  | read data =>
    obtain ⟨step, hread, rfl⟩ := Step.map_eq_ok_iff.1 h
    obtain ⟨⟨needed, rfl⟩, -⟩ := hclosed.read_eq_ok hread
    rfl

/-! ### Sessions that there can be -/

theorem Coherent.act (hS : S.Exact) (hs : s.Coherent) (a : Act) : (s.act S a).Coherent := by
  refine act_keeps hS hs hs (fun sending => ⟨hs.pending_le, hs.pending_none⟩) (fun data f s' h => ?_)
    (fun data step s' h => hs.of_read h) (fun e s' h => .of_none h.closed.pending) a
  obtain ⟨-, hpending, -, -, -, rfl⟩ := (decrypt_eq_ok_iff hS).1 h
  exact .of_none hpending

/-- The marks of every session that there can be fit together. -/
theorem Reachable.coherent (hS : S.Exact) (hs : Reachable S s) : s.Coherent := by
  induction hs with
  | handedOut handed =>
    obtain ⟨_, _, -, -, hpending, -⟩ := handed.fresh
    exact .of_none hpending
  | act before a ih => exact ih.act hS a

/-- **A frame that is partly read can be read.** -/
theorem Coherent.completable (hS : S.Sealing) (hs : s.Coherent) (hpoison : s.poisoned = false)
    (hpending : s.pendingHeader.isSome = true) : s.Completable S := by
  obtain ⟨h, hsome⟩ := Option.isSome_iff_exists.1 hpending
  refine ⟨h, hsome, fun payload hlength hroom => ?_⟩
  have hle := hs.pending_le h hsome
  have hcap : h.payloadLength ≤ ({} : FrameLimits).maxPayload := hle
  obtain ⟨f, hmake, -⟩ := Frame.exists_make hlength hle hcap
  obtain ⟨rfl, rfl⟩ := (Frame.make_eq_ok_iff hlength).1 hmake
  refine ⟨f, rfl, rfl, fun front behind hfront => ?_⟩
  -- Behind the header there are exactly as many bytes as the pieces take.
  let sealed := s.receiving.sealed S s.config.rekeyInterval (Bytes.chunks maxPiece f.payload)
  have hsealed : sealed.length = frameSize f.header - sealedHeaderLength := by
    rw [Direction.length_sealed hS, Bytes.flatten_chunks (by decide), Bytes.length_chunks (by decide), frameSize_eq,
      f.toNat_payloadLength, pieceCount]
    omega
  have hlong := sealedHeaderLength_le_frameSize f.header
  have hsize : frameSize f.header ≤ (front ++ sealed ++ behind).length := by
    simp only [List.length_append]
    omega
  have hbytes : ((front ++ sealed ++ behind).drop sealedHeaderLength).take
      (frameSize f.header - sealedHeaderLength) = sealed := by
    rw [List.append_assoc, List.drop_left' hfront, List.take_left' hsealed]
  refine (read_of_pending hpoison hsome).trans ((readBehind_of_long hsize).trans ?_)
  rw [hbytes]
  exact Step.bind_of_ok (openPayload_sealed (s := { s with pendingHeader := none }) hS hroom)

/-- A call that receives fails for good, or it is one to decrypt and is refused. -/
theorem call_eq_error (hS : S.Exact) (hs : s.Coherent) {c : Call} (hreceives : c.receives = true)
    (h : call S c s = .error e s') : FailsClosed e s' ∨ (∃ data, c = .decrypt data) ∧
      e = .session .readPending ∧ s' = s ∧ s.poisoned = false ∧ s.pendingHeader.isSome = true := by
  cases c with
  | encrypt f => cases hreceives
  | read data => exact .inl (read_eq_error hS hs (Step.map_eq_error_iff.1 h))
  | decrypt data =>
    rcases decrypt_eq_error hS hs (Step.map_eq_error_iff.1 h) with hfails | hrefused
    · exact .inl hfails
    · exact .inr ⟨⟨data, rfl⟩, hrefused⟩

/-- **A session fails closed.** Take any session that there can be. When decrypting or reading fails with any
kind but an invalid argument, the session gives no frame any more, whatever is done to it; if the kind is a
failed decryption or a payload that is too large, it is poisoned, keeps no header and refuses everything from
then on. When the kind is an invalid argument, then decrypting was refused because a frame is partly read;
nothing has changed, and that frame can still be read. When encrypting fails nothing has changed either. -/
theorem fails_closed (hS : S.Exact) (hs : Reachable S s) :
    (∀ (c : Call) (e : Fault) (s' : Session), c.receives = true → call S c s = .error e s' →
      (e.kind ≠ .invalidArgument → s'.GivesNoFrame S ∧
        (e.kind = .decryptionFailed ∨ e.kind = .payloadTooLarge →
          s'.poisoned = true ∧ s'.pendingHeader = none ∧ s'.RefusesAll S)) ∧
      (e.kind = .invalidArgument → (∃ data, c = .decrypt data) ∧ s' = s ∧ s.Completable S)) ∧
    ∀ (f : Frame) (e : Fault) (s' : Session), encrypt S f s = .error e s' → s' = s := by
  have hcoherent := hs.coherent hS
  refine ⟨fun c e s' hreceives h => ?_, fun f e s' h => state_of_encrypt_eq_error h⟩
  rcases call_eq_error hS hcoherent hreceives h with hfails | ⟨hdecrypt, rfl, rfl, hpoison, hpending⟩
  · refine ⟨fun _ => ⟨hfails.closed.givesNoFrame hS, fun hkind => ?_⟩, fun hkind => absurd hkind hfails.kind_ne⟩
    have hpoisoned := hfails.poisoned hkind
    exact ⟨hpoisoned, hfails.closed.pending, refusesAll_of_poisoned hpoisoned⟩
  · refine ⟨fun hkind => absurd rfl hkind, fun _ => ⟨hdecrypt, rfl, ?_⟩⟩
    exact hcoherent.completable hS.toSealing hpoison hpending

/-- On the suite of the protocol: a session that a handshake has handed out is given no bytes to decrypt, and
refuses everything from then on; and another, which has read a header, is asked to decrypt, and still reads
the frame. -/
theorem fails_closed_on_sample :
    (∃ s e s', Reachable Suite.standard s ∧ call Suite.standard (.decrypt []) s = .error e s' ∧
      e.kind = .decryptionFailed ∧ s'.poisoned = true ∧ s'.GivesNoFrame Suite.standard ∧
        s'.RefusesAll Suite.standard) ∧
    ∃ s e, Reachable Suite.standard s ∧ s.pendingHeader = some Sample.frame.header ∧
      call Suite.standard (.decrypt []) s = .error e s ∧ e.kind = .invalidArgument ∧
        s.Completable Suite.standard := by
  obtain ⟨s, _, hs, -, hconfig, -⟩ := Handshake.Sample.exists_handsOut {} {} rfl rfl
  obtain ⟨_, _, -, hreceiving, hpending, hpoison⟩ := hs.fresh
  have hcheck := checkPoison_of_sound hpoison
  constructor
  · have hdecrypt : call Suite.standard (.decrypt []) s
        = .error (.session .frameTruncated) { s with poisoned := true, pendingHeader := none } := by
      refine Step.map_eq_error_iff.2 ((Step.bind_of_ok hcheck).trans (Step.get_bind.trans ?_))
      rw [hpending]
      rfl
    obtain ⟨hcalls, -⟩ := fails_closed Suite.standard_exact (.handedOut hs)
    obtain ⟨hgood, -⟩ := hcalls (.decrypt []) _ _ rfl hdecrypt
    obtain ⟨hframes, hpoisons⟩ := hgood (by decide)
    obtain ⟨hpoisoned, -, hrefuses⟩ := hpoisons (.inl rfl)
    exact ⟨s, _, _, .handedOut hs, hdecrypt, rfl, hpoisoned, hframes, hrefuses⟩
  · -- The header of a frame is read, and its payload has not come.
    have hS := Suite.standard_exact.toSealing
    have hroom : 0 < s.receiving.room := by
      rw [hreceiving]
      show 0 < (reservedNonce - 0).toNat
      decide
    let sealed := Suite.standard.encrypt s.receiving.cipher.key s.receiving.cipher.nonce [] Sample.frame.header.bytes
    have hlength : sealed.length = sealedHeaderLength := Direction.length_encrypt_header hS _ _ _
    have htake : sealed.take sealedHeaderLength = sealed := List.take_of_length_le (Nat.le_of_eq hlength)
    have hopen := (congrArg (openHeader Suite.standard · s) htake).trans
      (openHeader_sealed (f := Sample.frame) hS (by rw [hconfig]; decide) hroom)
    have hread : read Suite.standard sealed s = _ :=
      (read_of_openHeader hpoison hpending (Nat.le_of_eq hlength.symm) hopen).trans
        (readBehind_of_short (by rw [hlength, frameSize_eq]; decide))
    have hreached := (Reachable.handedOut hs).act (.call (.read sealed))
    have hact : act Suite.standard s (.call (.read sealed)) = _ :=
      congrArg RecordM.after (Step.bind_of_ok hread)
    rw [hact] at hreached
    have hrefused : decrypt Suite.standard [] { s with
        receiving := s.receiving.next Suite.standard s.config.rekeyInterval
        pendingHeader := some Sample.frame.header } = .error (.session .readPending) _ :=
      decrypt_of_pending hpoison rfl
    obtain ⟨hcalls, -⟩ := fails_closed Suite.standard_exact hreached
    obtain ⟨-, hrefusal⟩ := hcalls (.decrypt []) _ _ rfl (Step.map_eq_error_iff.2 hrefused)
    obtain ⟨-, -, hcompletable⟩ := hrefusal rfl
    exact ⟨_, _, hreached, rfl, Step.map_eq_error_iff.2 hrefused, rfl, hcompletable⟩

end Session

end Stratum
