import Stratum.Proofs.RecordLayer

/-!
# A record of the pieces

A session does not say under which key and which nonce it seals and opens a piece.
`Recorded` is a session together with the pieces that have passed in either
direction, and this module runs a session so that each piece is written down when
`Session.sealPiece` or `Session.openPiece` is called.

* `RecordM.Keeps m m' P`: a recorded step `m` does, apart from the record, exactly what
  the step `m'` does, errors included, and keeps an invariant `P`. Sequences of such
  steps are such steps.
* **`Recorded.call_keeps`**: so is every call of a session, for every invariant that is
  kept by sealing one piece, by opening one piece, and by what leaves both directions
  and the settings alone.
* `Recorded.run_session`: a recorded run is a run.
* `Recorded.encrypt_eq_ok`: what is written down of a frame are its pieces, and what
  they were sealed to is the encrypted frame.
-/

namespace Stratum

/-- A piece that has passed. -/
structure Passage where
  /-- The key that it passed under. -/
  key : Key
  /-- The nonce that it took. -/
  nonce : UInt64
  /-- What it is. -/
  text : Bytes
  /-- What it is sealed to. -/
  sealed : Bytes
  deriving DecidableEq

/-- A session with the pieces that it has sealed and those that it has opened. -/
structure Recorded where
  /-- The session. -/
  session : Session
  /-- The pieces sealed, the first one first. -/
  sent : List Passage
  /-- The pieces opened, the first one first. -/
  received : List Passage

/-- A step of a recorded session. -/
abbrev RecordM (α : Type) := EStateM Fault Recorded α

namespace RecordM

/-- A step of the session in which no piece passes. -/
def quietly {α : Type} (m : SessionM α) : RecordM α := fun r =>
  match m r.session with
  | .ok a s => .ok a { r with session := s }
  | .error e s => .error e { r with session := s }

/-- A result without the record. -/
def erase {α : Type} : EStateM.Result Fault Recorded α → EStateM.Result Fault Session α
  | .ok a r => .ok a r.session
  | .error e r => .error e r.session

/-- The session and the record after a step. -/
def after {σ α : Type} : EStateM.Result Fault σ α → σ
  | .ok _ s => s
  | .error _ s => s

/-- A recorded step does what a step does, and keeps an invariant. -/
structure Keeps {α : Type} (m : RecordM α) (m' : SessionM α) (P : Recorded → Prop) : Prop where
  /-- Without the record it is the step. -/
  erase_eq : ∀ r, erase (m r) = m' r.session
  /-- It keeps the invariant. -/
  keeps : ∀ r, P r → P (after (m r))

end RecordM

namespace Recorded

open RecordM

variable (S : Suite)

/-! ### Recorded steps -/

/-- Seals one piece. -/
def sealPiece (piece : Bytes) : RecordM Bytes := do
  let cipher := (← get).session.sending.cipher
  let sealed ← quietly (Session.sealPiece S piece)
  modify fun r => { r with sent := r.sent ++ [⟨cipher.key, cipher.nonce, piece, sealed⟩] }
  return sealed

/-- Seals pieces one after another. -/
def sealPieces : List Bytes → RecordM Bytes
  | [] => return []
  | piece :: pieces => do
    let sealed ← sealPiece S piece
    let rest ← sealPieces pieces
    return sealed ++ rest

/-- Encrypts a frame. -/
def encrypt (f : Frame) : RecordM Bytes := do
  quietly Session.checkPoison
  let s ← quietly get
  if s.config.maxPayload.toNat < f.payload.length then quietly (Session.fail .payloadOverCap)
  if (reservedNonce - s.sending.cipher.nonce).toNat < pieceCount f.payload.length + 1 then
    quietly (Session.fail .noncesLeft)
  match f.header.encode with
  | .error e => throw e
  | .ok header => sealPieces S (header :: Bytes.chunks maxPiece f.payload)

/-- Opens one piece. -/
def openPiece (sealed : Bytes) : RecordM Bytes := do
  let cipher := (← get).session.receiving.cipher
  let piece ← quietly (Session.openPiece S sealed)
  modify fun r => { r with received := r.received ++ [⟨cipher.key, cipher.nonce, piece, sealed⟩] }
  return piece

/-- Opens a header and checks it against the cap. -/
def openHeader (sealed : Bytes) : RecordM FrameHeader := do
  let bs ← openPiece S sealed
  match FrameHeader.peek? bs with
  | none => quietly (Session.poison .headerShort)
  | some h =>
    if (← quietly get).config.maxPayload < h.payloadLength then quietly (Session.poison .declaredOverCap)
    return h

/-- Opens the pieces of a payload of which `left` bytes are still to come. -/
def openPieces (left : Nat) (sealed : Bytes) : RecordM Bytes := do
  if _h : left = 0 then return []
  else
    let size := min left maxPiece + Aead.tagLength
    if (sealed.take size).length < size then quietly (Session.poison .frameTruncated)
    else
      let piece ← openPiece S (sealed.take size)
      let rest ← openPieces (left - maxPiece) (sealed.drop size)
      return piece ++ rest
termination_by left
decreasing_by simp only [maxPiece, maxNoiseMessage, Aead.tagLength]; omega

/-- Opens the payload that a header declares. -/
def openPayload (h : FrameHeader) (sealed : Bytes) : RecordM Frame := do
  let payload ← openPieces S h.payloadLength.toNat sealed
  match Frame.make h.extensionType h.messageType payload with
  | .ok f => return f
  | .error e => throw e

/-- Decrypts a byte string that is one encrypted frame. -/
def decrypt (data : Bytes) : RecordM Frame := do
  quietly Session.checkPoison
  if (← quietly get).pendingHeader.isSome then quietly (Session.fail .readPending)
  if data.length < sealedHeaderLength then quietly (Session.poison .frameTruncated)
  let h ← openHeader S (data.take sealedHeaderLength)
  if data.length < Session.frameSize h then quietly (Session.poison .frameTruncated)
  if Session.frameSize h < data.length then quietly (Session.poison .frameTrailing)
  openPayload S h (data.drop sealedHeaderLength)

/-- The header of the frame at the start of a byte string. -/
def currentHeader (data : Bytes) : RecordM (Option FrameHeader) := do
  match (← quietly get).pendingHeader with
  | some h => return some h
  | none =>
    if data.length < sealedHeaderLength then return none
    let h ← openHeader S (data.take sealedHeaderLength)
    quietly (modify fun s => { s with pendingHeader := some h })
    return some h

/-- Reads the frame at the start of a byte string. -/
def read (data : Bytes) : RecordM ReadStep := do
  quietly Session.checkPoison
  match ← currentHeader S data with
  | none => return .incomplete (sealedHeaderLength - data.length)
  | some h =>
    let size := Session.frameSize h
    if data.length < size then return .incomplete (size - data.length)
    quietly (modify fun s => { s with pendingHeader := none })
    let f ← openPayload S h ((data.drop sealedHeaderLength).take (size - sealedHeaderLength))
    return .frame f size

end Recorded

/-! ### Calls -/

namespace Session

/-- A call of an operation of a session. -/
inductive Call where
  /-- Encrypts a frame. -/
  | encrypt (f : Frame)
  /-- Decrypts a byte string. -/
  | decrypt (data : Bytes)
  /-- Reads from the start of a byte string. -/
  | read (data : Bytes)

/-- What a call gives when it succeeds. -/
inductive Answer where
  /-- An encrypted frame. -/
  | encrypted (bs : Bytes)
  /-- A frame. -/
  | decrypted (f : Frame)
  /-- What was read. -/
  | step (r : ReadStep)

variable (S : Suite)

/-- Makes a call. -/
def call : Call → SessionM Answer
  | .encrypt f => .encrypted <$> encrypt S f
  | .decrypt data => .decrypted <$> decrypt S data
  | .read data => .step <$> read S data

/-- The session after some calls, whether they succeed or fail. -/
def run (s : Session) (calls : List Call) : Session :=
  calls.foldl (fun s c => RecordM.after (call S c s)) s

end Session

namespace Recorded

open RecordM

variable (S : Suite)

/-- Makes a call. -/
def call : Session.Call → RecordM Session.Answer
  | .encrypt f => .encrypted <$> encrypt S f
  | .decrypt data => .decrypted <$> decrypt S data
  | .read data => .step <$> read S data

/-- The session and the record after some calls. -/
def run (r : Recorded) (calls : List Session.Call) : Recorded :=
  calls.foldl (fun r c => after (call S c r)) r

end Recorded

/-! ### Recorded steps are steps -/

namespace RecordM

variable {α β : Type} {P : Recorded → Prop}

namespace Keeps

theorem session_after {m : RecordM α} {m' : SessionM α} (h : Keeps m m' P) (r : Recorded) :
    (after (m r)).session = after (m' r.session) := by
  rw [← h.erase_eq r]
  cases m r <;> rfl

theorem pure (a : α) : Keeps (Pure.pure a) (Pure.pure a) P where
  erase_eq _ := rfl
  keeps _ h := h

theorem throw (e : Fault) : Keeps (MonadExcept.throw e : RecordM α) (MonadExcept.throw e) P where
  erase_eq _ := rfl
  keeps _ h := h

theorem bind {m : RecordM α} {m' : SessionM α} {f : α → RecordM β} {f' : α → SessionM β}
    (hm : Keeps m m' P) (hf : ∀ a, Keeps (f a) (f' a) P) : Keeps (m >>= f) (m' >>= f') P where
  erase_eq r := by
    have herase := hm.erase_eq r
    cases hr : m r with
    | ok a r' =>
      rw [hr] at herase
      rw [Step.bind_of_ok hr, Step.bind_of_ok herase.symm]
      exact (hf a).erase_eq r'
    | error e r' =>
      rw [hr] at herase
      rw [Step.bind_of_error hr, Step.bind_of_error herase.symm]
      rfl
  keeps r h := by
    have hkeeps := hm.keeps r h
    cases hr : m r with
    | ok a r' =>
      rw [hr] at hkeeps
      rw [Step.bind_of_ok hr]
      exact (hf a).keeps r' hkeeps
    | error e r' =>
      rw [hr] at hkeeps
      rw [Step.bind_of_error hr]
      exact hkeeps

theorem map {m : RecordM α} {m' : SessionM α} (g : α → β) (hm : Keeps m m' P) :
    Keeps (g <$> m) (g <$> m') P :=
  hm.bind fun a => .pure (g a)

/-- A step that is refused under a condition. -/
theorem guarded {c : Prop} [Decidable c] {x : RecordM Unit} {x' : SessionM Unit} {k : Unit → RecordM α}
    {k' : Unit → SessionM α} (hx : Keeps x x' P) (hk : Keeps (k ()) (k' ()) P) :
    Keeps (if c then x >>= k else k ()) (if c then x' >>= k' else k' ()) P := by
  split
  · exact hx.bind fun _ => hk
  · exact hk

/-- A step under a condition, or another. -/
theorem ite {c : Prop} [Decidable c] {x y : RecordM α} {x' y' : SessionM α} (hx : Keeps x x' P)
    (hy : Keeps y y' P) : Keeps (if c then x else y) (if c then x' else y') P := by
  split
  · exact hx
  · exact hy

end Keeps

end RecordM

/-! ### What leaves the directions alone -/

namespace Session

/-- A step that leaves both directions and the settings as they are. -/
def Still {α : Type} (m : SessionM α) : Prop :=
  ∀ s, (RecordM.after (m s)).sending = s.sending ∧ (RecordM.after (m s)).receiving = s.receiving ∧
    (RecordM.after (m s)).config = s.config

theorem still_get : Still (get : SessionM Session) := fun _ => ⟨rfl, rfl, rfl⟩

theorem still_fail {α : Type} (cause : SessionFault) : Still (fail cause : SessionM α) := fun _ => ⟨rfl, rfl, rfl⟩

theorem still_poison {α : Type} (cause : SessionFault) : Still (poison cause : SessionM α) :=
  fun _ => ⟨rfl, rfl, rfl⟩

theorem still_setPending (h : Option FrameHeader) :
    Still (modify fun s => { s with pendingHeader := h } : SessionM PUnit) := fun _ => ⟨rfl, rfl, rfl⟩

theorem still_checkPoison : Still checkPoison := by
  intro s
  cases hp : s.poisoned with
  | true => rw [checkPoison_of_poisoned hp]; exact ⟨rfl, rfl, rfl⟩
  | false => rw [checkPoison_of_sound hp]; exact ⟨rfl, rfl, rfl⟩

variable {S : Suite} {s s' : Session} {e : Fault}

/-- A piece that is not sealed changes nothing. -/
theorem state_of_sealPiece_eq_error {piece : Bytes} (h : sealPiece S piece s = .error e s') : s' = s := by
  unfold sealPiece at h
  replace h := Step.get_bind.symm.trans h
  dsimp only at h
  cases hsealed : s.sending.cipher.encrypt S [] piece with
  | error cause =>
    rw [hsealed] at h
    cases h
    rfl
  | ok sealed =>
    rw [hsealed] at h
    cases h

/-- A piece that is not opened leaves the directions alone. -/
theorem still_of_openPiece_eq_error {sealed : Bytes} (h : openPiece S sealed s = .error e s') :
    s'.sending = s.sending ∧ s'.receiving = s.receiving ∧ s'.config = s.config := by
  unfold openPiece at h
  replace h := Step.get_bind.symm.trans h
  dsimp only at h
  cases hopened : s.receiving.cipher.decrypt S [] sealed with
  | error cause =>
    rw [hopened] at h
    cases h
    exact ⟨rfl, rfl, rfl⟩
  | ok opened =>
    rw [hopened] at h
    cases opened with
    | none =>
      cases h
      exact ⟨rfl, rfl, rfl⟩
    | some piece => cases h

end Session

/-! ### Invariants of a recorded session -/

/-- How a direction seals its next piece. -/
def Direction.passage (S : Suite) (d : Direction) (piece : Bytes) : Passage where
  key := d.cipher.key
  nonce := d.cipher.nonce
  text := piece
  sealed := S.encrypt d.cipher.key d.cipher.nonce [] piece

namespace Recorded

open RecordM

/-- The record after a piece is sealed, and the session with it. -/
def afterSeal (S : Suite) (r : Recorded) (piece : Bytes) : Recorded where
  session := { r.session with sending := r.session.sending.next S r.session.config.rekeyInterval }
  sent := r.sent ++ [r.session.sending.passage S piece]
  received := r.received

/-- The record after a piece is opened, and the session with it. -/
def afterOpen (S : Suite) (r : Recorded) (piece sealed : Bytes) : Recorded where
  session := { r.session with receiving := r.session.receiving.next S r.session.config.rekeyInterval }
  sent := r.sent
  received := r.received ++ [⟨r.session.receiving.cipher.key, r.session.receiving.cipher.nonce, piece, sealed⟩]

/-- A property of recorded sessions that holds on as pieces pass. -/
structure Invariant (S : Suite) (P : Recorded → Prop) : Prop where
  /-- It is about the directions, the settings and the record. -/
  still : ∀ {r : Recorded} {s : Session}, P r → s.sending = r.session.sending ∧
    s.receiving = r.session.receiving ∧ s.config = r.session.config → P { r with session := s }
  /-- It holds on when a piece is sealed. -/
  seals : ∀ {r : Recorded} (piece : Bytes), P r → 0 < r.session.sending.room → P (r.afterSeal S piece)
  /-- It holds on when a piece is opened. -/
  opens : ∀ {r : Recorded} {piece sealed : Bytes}, P r → 0 < r.session.receiving.room →
    S.decrypt? r.session.receiving.cipher.key r.session.receiving.cipher.nonce [] sealed = some piece →
      P (r.afterOpen S piece sealed)

variable {S : Suite} {P : Recorded → Prop}

theorem quietly_keeps {α : Type} (hP : Invariant S P) {m : SessionM α} (hm : Session.Still m) :
    Keeps (quietly m) m P where
  erase_eq r := by
    unfold quietly
    cases m r.session <;> rfl
  keeps r h := by
    have hstill := hm r.session
    unfold quietly
    cases hr : m r.session with
    | ok a s => rw [hr] at hstill; exact hP.still h hstill
    | error e s => rw [hr] at hstill; exact hP.still h hstill

theorem quietly_of_ok {α : Type} {m : SessionM α} {a : α} {r : Recorded} {s : Session}
    (h : m r.session = .ok a s) : quietly m r = .ok a { r with session := s } := by
  rw [quietly, h]

theorem quietly_of_error {α : Type} {m : SessionM α} {e : Fault} {r : Recorded} {s : Session}
    (h : m r.session = .error e s) : quietly m r = .error e { r with session := s } := by
  rw [quietly, h]

theorem sealPiece_of_ok {piece c : Bytes} {r : Recorded} {s : Session}
    (h : Session.sealPiece S piece r.session = .ok c s) :
    0 < r.session.sending.room ∧ sealPiece S piece r = .ok c (r.afterSeal S piece) ∧
      s = (r.afterSeal S piece).session := by
  obtain ⟨hroom, -, rfl, rfl⟩ := Session.sealPiece_eq_ok_iff.1 h
  exact ⟨hroom, Step.get_bind.trans (Step.bind_of_ok (quietly_of_ok h)), rfl⟩

theorem sealPiece_of_error {piece : Bytes} {e : Fault} {r : Recorded} {s : Session}
    (h : Session.sealPiece S piece r.session = .error e s) : sealPiece S piece r = .error e r := by
  obtain rfl := Session.state_of_sealPiece_eq_error h
  exact Step.get_bind.trans (Step.bind_of_error (quietly_of_error h))

theorem sealPiece_keeps (hP : Invariant S P) (piece : Bytes) :
    Keeps (sealPiece S piece) (Session.sealPiece S piece) P where
  erase_eq r := by
    cases h : Session.sealPiece S piece r.session with
    | ok c s =>
      obtain ⟨-, hok, rfl⟩ := sealPiece_of_ok h
      rw [hok]
      rfl
    | error e s =>
      rw [sealPiece_of_error h, Session.state_of_sealPiece_eq_error h]
      rfl
  keeps r hr := by
    cases h : Session.sealPiece S piece r.session with
    | ok c s =>
      obtain ⟨hroom, hok, -⟩ := sealPiece_of_ok h
      rw [hok]
      exact hP.seals piece hr hroom
    | error e s =>
      rw [sealPiece_of_error h]
      exact hr

theorem sealPieces_keeps (hP : Invariant S P) (pieces : List Bytes) :
    Keeps (sealPieces S pieces) (Session.sealPieces S pieces) P := by
  induction pieces with
  | nil => exact .pure _
  | cons piece pieces ih => exact (sealPiece_keeps hP piece).bind fun _ => ih.bind fun _ => .pure _

theorem encrypt_keeps (hP : Invariant S P) (f : Frame) : Keeps (encrypt S f) (Session.encrypt S f) P := by
  refine (quietly_keeps hP Session.still_checkPoison).bind fun _ => ?_
  refine (quietly_keeps hP Session.still_get).bind fun s => ?_
  refine .guarded (quietly_keeps hP (Session.still_fail _)) ?_
  refine .guarded (quietly_keeps hP (Session.still_fail _)) ?_
  cases f.header.encode with
  | error e => exact .throw e
  | ok header => exact sealPieces_keeps hP _

theorem openPiece_of_ok {sealed piece : Bytes} {r : Recorded} {s : Session}
    (h : Session.openPiece S sealed r.session = .ok piece s) :
    0 < r.session.receiving.room ∧
      S.decrypt? r.session.receiving.cipher.key r.session.receiving.cipher.nonce [] sealed = some piece ∧
        openPiece S sealed r = .ok piece (r.afterOpen S piece sealed) ∧
          s = (r.afterOpen S piece sealed).session := by
  obtain ⟨hroom, hopened, rfl⟩ := Session.openPiece_eq_ok_iff.1 h
  exact ⟨hroom, (Suite.openSealed_eq_some_iff.1 hopened).2.2.2, Step.get_bind.trans (Step.bind_of_ok (quietly_of_ok h)),
    rfl⟩

theorem openPiece_of_error {sealed : Bytes} {e : Fault} {r : Recorded} {s : Session}
    (h : Session.openPiece S sealed r.session = .error e s) :
    openPiece S sealed r = .error e { r with session := s } :=
  Step.get_bind.trans (Step.bind_of_error (quietly_of_error h))

theorem openPiece_keeps (hP : Invariant S P) (sealed : Bytes) :
    Keeps (openPiece S sealed) (Session.openPiece S sealed) P where
  erase_eq r := by
    cases h : Session.openPiece S sealed r.session with
    | ok piece s =>
      obtain ⟨-, -, hok, rfl⟩ := openPiece_of_ok h
      rw [hok]
      rfl
    | error e s =>
      rw [openPiece_of_error h]
      rfl
  keeps r hr := by
    cases h : Session.openPiece S sealed r.session with
    | ok piece s =>
      obtain ⟨hroom, hopened, hok, -⟩ := openPiece_of_ok h
      rw [hok]
      exact hP.opens hr hroom hopened
    | error e s =>
      rw [openPiece_of_error h]
      exact hP.still hr (Session.still_of_openPiece_eq_error h)

theorem openHeader_keeps (hP : Invariant S P) (sealed : Bytes) :
    Keeps (openHeader S sealed) (Session.openHeader S sealed) P := by
  refine (openPiece_keeps hP sealed).bind fun bs => ?_
  cases FrameHeader.peek? bs with
  | none => exact quietly_keeps hP (Session.still_poison _)
  | some h =>
    refine (quietly_keeps hP Session.still_get).bind fun s => ?_
    exact .guarded (quietly_keeps hP (Session.still_poison _)) (.pure h)

theorem openPieces_keeps (hP : Invariant S P) (left : Nat) (sealed : Bytes) :
    Keeps (openPieces S left sealed) (Session.openPieces S left sealed) P := by
  induction left using Nat.strongRecOn generalizing sealed with
  | ind left ih =>
    rw [openPieces, Session.openPieces]
    by_cases hleft : left = 0
    · rw [dif_pos hleft, dif_pos hleft]
      exact .pure []
    · rw [dif_neg hleft, dif_neg hleft]
      refine .ite (quietly_keeps hP (Session.still_poison _)) ?_
      refine (openPiece_keeps hP _).bind fun piece => ?_
      refine (ih (left - maxPiece) (Nat.sub_lt (Nat.pos_of_ne_zero hleft) (by decide)) _).bind fun rest => ?_
      exact .pure _

theorem openPayload_keeps (hP : Invariant S P) (h : FrameHeader) (sealed : Bytes) :
    Keeps (openPayload S h sealed) (Session.openPayload S h sealed) P := by
  refine (openPieces_keeps hP _ sealed).bind fun payload => ?_
  cases Frame.make h.extensionType h.messageType payload with
  | ok f => exact .pure f
  | error e => exact .throw e

theorem decrypt_keeps (hP : Invariant S P) (data : Bytes) :
    Keeps (decrypt S data) (Session.decrypt S data) P := by
  refine (quietly_keeps hP Session.still_checkPoison).bind fun _ => ?_
  refine (quietly_keeps hP Session.still_get).bind fun s => ?_
  refine .guarded (quietly_keeps hP (Session.still_fail _)) ?_
  refine .guarded (quietly_keeps hP (Session.still_poison _)) ?_
  refine (openHeader_keeps hP _).bind fun h => ?_
  refine .guarded (quietly_keeps hP (Session.still_poison _)) ?_
  refine .guarded (quietly_keeps hP (Session.still_poison _)) ?_
  exact openPayload_keeps hP h _

theorem currentHeader_keeps (hP : Invariant S P) (data : Bytes) :
    Keeps (currentHeader S data) (Session.currentHeader S data) P := by
  refine (quietly_keeps hP Session.still_get).bind fun s => ?_
  cases s.pendingHeader with
  | some h => exact .pure (some h)
  | none =>
    refine .ite (.pure none) ?_
    refine (openHeader_keeps hP _).bind fun h => ?_
    exact (quietly_keeps hP (Session.still_setPending (some h))).bind fun _ => .pure (some h)

theorem read_keeps (hP : Invariant S P) (data : Bytes) : Keeps (read S data) (Session.read S data) P := by
  refine (quietly_keeps hP Session.still_checkPoison).bind fun _ => ?_
  refine (currentHeader_keeps hP data).bind fun header => ?_
  cases header with
  | none => exact .pure _
  | some h =>
    refine .ite (.pure _) ?_
    refine (quietly_keeps hP (Session.still_setPending none)).bind fun _ => ?_
    exact (openPayload_keeps hP h _).bind fun f => .pure _

/-- **A recorded call is a call, and keeps every invariant.** -/
theorem call_keeps (hP : Invariant S P) (c : Session.Call) : Keeps (call S c) (Session.call S c) P := by
  cases c with
  | encrypt f => exact (encrypt_keeps hP f).map _
  | decrypt data => exact (decrypt_keeps hP data).map _
  | read data => exact (read_keeps hP data).map _

theorem run_keeps (hP : Invariant S P) {r : Recorded} (hr : P r) (calls : List Session.Call) :
    P (r.run S calls) := by
  induction calls generalizing r with
  | nil => exact hr
  | cons c calls ih => exact ih ((call_keeps hP c).keeps r hr)

/-- Everything is an invariant that says nothing. -/
theorem invariant_true (S : Suite) : Invariant S fun _ => True where
  still _ _ := trivial
  seals _ _ _ := trivial
  opens _ _ _ := trivial

/-- A recorded run is the run. -/
theorem run_session (r : Recorded) (calls : List Session.Call) :
    (r.run S calls).session = r.session.run S calls := by
  induction calls generalizing r with
  | nil => rfl
  | cons c calls ih =>
    have hcall := (call_keeps (invariant_true S) c).session_after r
    exact (ih (after (call S c r))).trans (congrArg (fun s => Session.run S s calls) hcall)

/-! ### What is written down of a frame -/

theorem quietly_eq_ok_iff {α : Type} {m : SessionM α} {a : α} {r r' : Recorded} :
    quietly m r = .ok a r' ↔ ∃ s, m r.session = .ok a s ∧ r' = { r with session := s } := by
  unfold quietly
  cases m r.session with
  | ok b s => exact ⟨fun h => by cases h; exact ⟨s, rfl, rfl⟩, fun ⟨_, h, hr⟩ => by cases h; rw [hr]⟩
  | error e s => exact ⟨fun h => (nomatch h), fun ⟨_, h, _⟩ => nomatch h⟩

theorem sealPieces_eq_ok {pieces : List Bytes} {c : Bytes} {r r' : Recorded}
    (h : sealPieces S pieces r = .ok c r') :
    ∃ passed, r'.sent = r.sent ++ passed ∧ r'.received = r.received ∧ passed.map Passage.text = pieces ∧
      passed.flatMap Passage.sealed = c := by
  induction pieces generalizing r c with
  | nil =>
    cases h
    exact ⟨[], (List.append_nil _).symm, rfl, rfl, rfl⟩
  | cons piece pieces ih =>
    obtain ⟨sealed, r₁, hpiece, h⟩ := Step.bind_eq_ok_iff.1 h
    obtain ⟨rest, r₂, hrest, h⟩ := Step.bind_eq_ok_iff.1 h
    cases h
    obtain ⟨passed, hsent, hreceived, htexts, hsealed⟩ := ih hrest
    cases hs : Session.sealPiece S piece r.session with
    | error e s => cases (sealPiece_of_error hs).symm.trans hpiece
    | ok c s =>
      obtain ⟨-, hok, -⟩ := sealPiece_of_ok hs
      obtain ⟨-, -, rfl, -⟩ := Session.sealPiece_eq_ok_iff.1 hs
      cases hok.symm.trans hpiece
      refine ⟨r.session.sending.passage S piece :: passed, hsent.trans ?_, hreceived,
        congrArg (piece :: ·) htexts, congrArg (_ ++ ·) hsealed⟩
      exact List.append_assoc _ _ _

/-- **What is written down of an encrypted frame are its pieces**, in order, and what they were sealed to is
what the frame is encrypted to. -/
theorem encrypt_eq_ok {f : Frame} {c : Bytes} {r r' : Recorded} (h : encrypt S f r = .ok c r') :
    ∃ passed, r'.sent = r.sent ++ passed ∧ r'.received = r.received ∧ passed.map Passage.text = f.pieces ∧
      passed.flatMap Passage.sealed = c := by
  have hfail {cause : SessionFault} {r₀ : Recorded} (a : Unit) (r₁ : Recorded) :
      quietly (Session.fail cause) r₀ ≠ .ok a r₁ := fun h => nomatch h
  obtain ⟨_, _, hpoison, h⟩ := Step.bind_eq_ok_iff.1 h
  obtain ⟨s, -, rfl⟩ := quietly_eq_ok_iff.1 hpoison
  obtain ⟨_, _, hget, h⟩ := Step.bind_eq_ok_iff.1 h
  cases hget
  obtain ⟨-, h⟩ := (Step.reject_eq_ok_iff hfail).1 h
  obtain ⟨-, h⟩ := (Step.reject_eq_ok_iff hfail).1 h
  rw [FrameHeader.encode_of_le f.payloadLength_le] at h
  have hpieces : sealPieces S f.pieces { r with session := s } = .ok c r' := h
  obtain ⟨passed, hpassed⟩ := sealPieces_eq_ok hpieces
  exact ⟨passed, hpassed⟩

end Recorded

end Stratum
