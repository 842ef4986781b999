import Stratum.Proofs.AllOrNothing
import Stratum.Proofs.FailClosed
import Stratum.Proofs.HostileMessages
import Stratum.Proofs.Interoperation

/-!
# The texts of a miner's requests

A miner sends two texts of its settings to the pool: the host that it has connected to, in the
set-up, and the identity of its user, in the request for a channel. On the wire a text has 255
bytes of UTF-8 at most (`FitsRequest`). The settings are checked before the miner connects, but
not for that: of the host any length will do, and of neither text the bytes are looked at. This
module says what becomes of texts that do not fit, and that no other text is to blame for anything:

* `Miner.exists_setup_frame_iff`, `Miner.exists_channel_frame_iff`: a request can be made exactly if
  its text fits, and then it has a frame.
* `Step.FailsWithin`: a step that keeps a property of its state, and fails with certain faults only.
  It is closed under all that programs are put together from, so what the parts of a connection
  do is said once for each (`Step.SparesTexts`).
* **`Miner.Client.blames_turn`**: a turn of a miner fails with a fault of the kinds that are
  reported for a caller's text only where a text of its settings does not fit, and with the
  fault of that text (`Miner.BlamesText`).
* **`Miner.Client.Reached.blaming`**: so does the miner, whatever arrives and however it arrives.
* **`Miner.texts_decide_requests`** puts it together for settings that have been checked.

That such settings can always be sent is therefore refuted, by a host of 256 bytes
(`Miner.not_all_checked_requests_fit`). Of the suite it is assumed that nothing opens but what was
sealed (`Suite.Exact`), so that message 2 of a handshake is refused in the known ways only.
-/

namespace Stratum

/-! ### The requests -/

/-- A text that a request can carry: 255 bytes at most, of UTF-8. -/
def FitsRequest (bs : Bytes) : Prop := bs.length ≤ 255 ∧ Utf8.isValid bs = true

instance (bs : Bytes) : Decidable (FitsRequest bs) := inferInstanceAs (Decidable (_ ∧ _))

/-- Why a text is refused: first for its length, then for its bytes. -/
def requestFault (bs : Bytes) : CodecFault := if bs.length ≤ 255 then .textNotUtf8 else .textTooLong

namespace Miner

variable {c : MinerConfig}

theorem requestText_of_not_fits {bs : Bytes} (h : ¬ FitsRequest bs) :
    (requestText bs : Except Fault (Text .upTo255)) = .error (.codec (requestFault bs)) := by
  unfold requestText Text.ofBytes requestFault
  by_cases hlen : bs.length ≤ LengthBound.upTo255.max
  · have hvalid : ¬ Utf8.isValid bs = true := fun hvalid => h ⟨hlen, hvalid⟩
    rw [dif_pos hlen, dif_neg hvalid, if_pos (show bs.length ≤ 255 from hlen)]
    rfl
  · rw [dif_neg hlen, if_neg (show ¬ bs.length ≤ 255 from hlen)]
    rfl

theorem setupRequest_of_not_fits (h : ¬ FitsRequest c.host) :
    setupRequest c = .error (.codec (requestFault c.host)) :=
  Attempt.bind_of_error (requestText_of_not_fits h)

theorem channelRequest_of_not_fits (h : ¬ FitsRequest c.userIdentity) :
    channelRequest c = .error (.codec (requestFault c.userIdentity)) :=
  Attempt.bind_of_error (requestText_of_not_fits h)

theorem fits_of_setupRequest {m : Message} (h : setupRequest c = .ok m) : FitsRequest c.host := by
  by_contra hfits
  cases (setupRequest_of_not_fits hfits).symm.trans h

theorem fits_of_channelRequest {m : Message} (h : channelRequest c = .ok m) : FitsRequest c.userIdentity := by
  by_contra hfits
  cases (channelRequest_of_not_fits hfits).symm.trans h

/-- **The set-up can be made and has a frame exactly if the host fits.** -/
theorem exists_setup_frame_iff :
    (∃ m f, setupRequest c = .ok m ∧ m.toFrame = .ok f) ↔ FitsRequest c.host := by
  constructor
  · rintro ⟨m, f, hm, -⟩
    exact fits_of_setupRequest hm
  · rintro ⟨hlen, hvalid⟩
    obtain ⟨setup, hsetup, hrule, -⟩ := exists_setup hlen hvalid
    obtain ⟨f, hf, -⟩ : ∃ f, Message.toFrame ⟨.setupConnection, setup⟩ = .ok f ∧ _ ∧ _ :=
      (Message.Sendable.of_type hrule (by decide)).exists_frame
    exact ⟨_, f, hsetup, hf⟩

/-- **The request for a channel can be made and has a frame exactly if the user's identity fits.** -/
theorem exists_channel_frame_iff :
    (∃ m f, channelRequest c = .ok m ∧ m.toFrame = .ok f) ↔ FitsRequest c.userIdentity := by
  constructor
  · rintro ⟨m, f, hm, -⟩
    exact fits_of_channelRequest hm
  · rintro ⟨hlen, hvalid⟩
    obtain ⟨request, hrequest, -⟩ := exists_request hlen hvalid
    obtain ⟨f, hf, -⟩ : ∃ f, Message.toFrame ⟨.openStandardMiningChannel, request⟩ = .ok f ∧ _ ∧ _ :=
      (Message.Sendable.of_type rfl (by decide)).exists_frame
    exact ⟨_, f, hrequest, hf⟩

theorem length_userIdentity_le (h : c.validate = .ok ()) : c.userIdentity.length ≤ 255 := by
  obtain ⟨_, -, h⟩ := Attempt.bind_eq_ok_iff.1 h
  obtain ⟨_, -, h⟩ := Attempt.bind_eq_ok_iff.1 h
  obtain ⟨_, -, h⟩ := Attempt.bind_eq_ok_iff.1 h
  obtain ⟨_, hidentity, -⟩ := Attempt.bind_eq_ok_iff.1 h
  have hlength := ConfigFault.unless_eq_ok_iff.1 hidentity
  rw [Bool.and_eq_true, decide_eq_true_eq] at hlength
  exact hlength.2

/-- Of the user's identity the check of the settings leaves only the bytes open. -/
theorem fits_userIdentity_iff (h : c.validate = .ok ()) :
    FitsRequest c.userIdentity ↔ Utf8.isValid c.userIdentity = true :=
  ⟨fun hfits => hfits.2, fun hvalid => ⟨length_userIdentity_le h, hvalid⟩⟩

end Miner

/-! ### Faults that no text is the reason for -/

/-- A fault of the kinds that are reported for a text of the caller. -/
def Fault.IsOfText (e : Fault) : Prop := e.kind = .tooLong ∨ e.kind = .invalidArgument

instance (e : Fault) : Decidable e.IsOfText := inferInstanceAs (Decidable (_ ∨ _))

theorem Fault.not_isOfText_of_kind {e : Fault} {kind : ErrorKind} (h : e.kind = kind)
    (hkind : kind ≠ .tooLong ∧ kind ≠ .invalidArgument) : ¬ e.IsOfText := by
  rintro (hlong | hargument)
  · exact hkind.1 (h.symm.trans hlong)
  · exact hkind.2 (h.symm.trans hargument)

theorem Step.throw_ne_ok {σ α : Type} {e : Fault} (s : σ) (a : α) (s' : σ) :
    (throw e : EStateM Fault σ α) s ≠ .ok a s' := by
  intro h
  cases h

/-- A step keeps a property of the state, and fails with certain faults only. -/
def Step.FailsWithin {σ α : Type} (I : σ → Prop) (P : Fault → Prop) (x : EStateM Fault σ α) : Prop :=
  ∀ s, I s → I (RecordM.after (x s)) ∧ ∀ e s', x s = .error e s' → P e

namespace Step.FailsWithin

variable {σ α β : Type} {I : σ → Prop} {P : Fault → Prop} {x : EStateM Fault σ α} {f : α → EStateM Fault σ β}

theorem pure (a : α) : FailsWithin I P (Pure.pure a : EStateM Fault σ α) :=
  fun _ hs => ⟨hs, fun _ _ h => nomatch h⟩

theorem throw {e : Fault} (he : P e) : FailsWithin I P (MonadExcept.throw e : EStateM Fault σ α) := by
  intro s hs
  constructor
  · exact hs
  · intro e' s' h
    cases h
    exact he

/-- A sequence whose second part is only reached behind the first. -/
theorem bind_of_ok (hx : FailsWithin I P x) (hf : ∀ s a s', x s = .ok a s' → FailsWithin I P (f a)) :
    FailsWithin I P (x >>= f) := by
  intro s hs
  obtain ⟨hkept, hfails⟩ := hx s hs
  cases hr : x s with
  | error e s₁ =>
    rw [hr] at hkept
    rw [Step.bind_of_error hr]
    refine ⟨hkept, fun e' s' h => ?_⟩
    cases h
    exact hfails e s₁ hr
  | ok a s₁ =>
    rw [hr] at hkept
    rw [Step.bind_of_ok hr]
    exact hf s a s₁ hr s₁ hkept

theorem bind (hx : FailsWithin I P x) (hf : ∀ a, FailsWithin I P (f a)) : FailsWithin I P (x >>= f) :=
  hx.bind_of_ok fun _ a _ _ => hf a

theorem get_bind {g : σ → EStateM Fault σ α} (hg : ∀ s, I s → FailsWithin I P (g s)) :
    FailsWithin I P (get >>= g) :=
  fun s hs => hg s hs s hs

theorem ofExcept {y : Except Fault α} (hy : ∀ e, y = .error e → P e) :
    FailsWithin I P (MonadExcept.ofExcept y : EStateM Fault σ α) := by
  cases y with
  | ok a => exact pure a
  | error e => exact throw (hy e rfl)

theorem modifies {g : σ → σ} (hg : ∀ s, I s → I (g s)) : FailsWithin I P (modify g : EStateM Fault σ PUnit) :=
  fun s hs => ⟨hg s hs, fun _ _ h => nomatch h⟩

theorem ite {p : Prop} [Decidable p] {y : EStateM Fault σ α} (hx : FailsWithin I P x) (hy : FailsWithin I P y) :
    FailsWithin I P (if p then x else y) := by
  by_cases hp : p
  · rw [if_pos hp]
    exact hx
  · rw [if_neg hp]
    exact hy

/-- A step that is refused under a condition. -/
theorem reject {p : Prop} [Decidable p] {z : EStateM Fault σ β} (hx : FailsWithin I P x)
    (hnever : ∀ s a s', x s ≠ .ok a s') (hz : FailsWithin I P z) : FailsWithin I P (if p then x >>= f else z) :=
  .ite (hx.bind_of_ok fun s a s' hok => absurd hok (hnever s a s')) hz

/-- Turn after turn, and whatever comes of it. -/
theorem takeTurns {turn : EStateM Fault σ Bool} (hturn : FailsWithin I P turn) (fuel : Nat) {s : σ} (hs : I s) :
    I (Stratum.takeTurns turn fuel s).2 ∧ ∀ e, (Stratum.takeTurns turn fuel s).1 = .stopped e → P e := by
  induction fuel generalizing s with
  | zero =>
    refine ⟨hs, fun e h => ?_⟩
    cases h
  | succ fuel ih =>
    obtain ⟨hkept, hfails⟩ := hturn s hs
    rw [Stratum.takeTurns]
    cases hr : turn s with
    | ok goesOn s' =>
      rw [hr] at hkept
      cases goesOn with
      | true => exact ih hkept
      | false =>
        refine ⟨hkept, fun e h => ?_⟩
        cases h
    | error cause s' =>
      rw [hr] at hkept
      refine ⟨hkept, fun e h => ?_⟩
      dsimp only at h
      split at h
      · cases h
      · cases h
        exact hfails cause s' hr

end Step.FailsWithin

/-- A step never fails for a text. -/
abbrev Step.SparesTexts {σ α : Type} (x : EStateM Fault σ α) : Prop :=
  FailsWithin (fun _ => True) (fun e => ¬ e.IsOfText) x

theorem Step.sparesTexts_of_error {σ α : Type} {x : EStateM Fault σ α}
    (h : ∀ s e s', x s = .error e s' → ¬ e.IsOfText) : SparesTexts x :=
  fun s _ => ⟨trivial, h s⟩

/-- A step that is taken on a part of the state fails as the step on that part does. -/
theorem Step.SparesTexts.of_part {σ τ α β : Type} {I : σ → Prop} {P : Fault → Prop} {x : EStateM Fault σ α}
    {y : EStateM Fault τ β} (hy : SparesTexts y) (part : σ → τ) (hfault : ∀ e, ¬ e.IsOfText → P e)
    (hok : ∀ s b t, I s → y (part s) = .ok b t → ∃ a s', x s = .ok a s' ∧ I s')
    (herror : ∀ s e t, I s → y (part s) = .error e t → ∃ s', x s = .error e s' ∧ I s') : FailsWithin I P x := by
  intro s hs
  cases hr : y (part s) with
  | ok b t =>
    obtain ⟨a, s', hx, hs'⟩ := hok s b t hs hr
    rw [hx]
    exact ⟨hs', fun _ _ h => nomatch h⟩
  | error e t =>
    obtain ⟨s', hx, hs'⟩ := herror s e t hs hr
    rw [hx]
    refine ⟨hs', fun e' s'' h => ?_⟩
    cases h
    exact hfault e ((hy (part s) trivial).2 e t hr)

/-! ### The bytes of a connection -/

namespace Transport

open Step

/-- Nothing is asked about a transport. -/
theorem spares_fail {α : Type} (cause : TransportFault) :
    SparesTexts (fail cause : TransportM α) := by
  have hkind : (Fault.transport cause).kind = .ioError := rfl
  exact .throw (Fault.not_isOfText_of_kind hkind (by decide))

theorem fail_ne_ok {α : Type} {cause : TransportFault} (t : Transport) (a : α) (t' : Transport) :
    (fail cause : TransportM α) t ≠ .ok a t' :=
  throw_ne_ok t a t'

theorem spares_send (bs : Bytes) : SparesTexts (send bs) := by
  refine .get_bind fun t _ => ?_
  refine .reject (spares_fail _) fail_ne_ok ?_
  refine .reject (spares_fail _) fail_ne_ok ?_
  exact .modifies fun _ _ => trivial

theorem spares_fill (n : Nat) : SparesTexts (fill n) := by
  refine .get_bind fun t _ => ?_
  refine .reject (spares_fail _) fail_ne_ok ?_
  refine .bind (.modifies fun _ _ => trivial) fun _ => ?_
  exact .ite (spares_fail _) (.pure _)

theorem spares_sendHandshake (message : Bytes) : SparesTexts (sendHandshake message) :=
  .reject (.throw (by decide)) throw_ne_ok (spares_send _)

theorem spares_receiveHandshake : SparesTexts receiveHandshake := by
  refine (spares_fill 2).bind fun _ => ?_
  refine .get_bind fun t _ => ?_
  refine (spares_fill _).bind fun _ => ?_
  refine .get_bind fun t _ => ?_
  exact .bind (.modifies fun _ _ => trivial) fun _ => .pure _

end Transport

theorem Frame.not_isOfText_of_make {extensionType : UInt16} {messageType : UInt8} {payload : Bytes}
    {limits : FrameLimits} {e : Fault} (h : Frame.make extensionType messageType payload limits = .error e) :
    ¬ e.IsOfText := by
  unfold Frame.make at h
  split at h
  · cases h
  · cases h
    decide

namespace Session

open Step

variable (S : Suite)

theorem spares_encrypt (f : Frame) : SparesTexts (encrypt S f) := by
  refine sparesTexts_of_error fun s e s' h => ?_
  obtain ⟨-, hrefuses⟩ := encrypt_eq_error_iff.1 h
  cases hrefuses with
  | poisoned => decide
  | cap => decide
  | nonces => decide

variable {S}

/-- Steps that open pieces fail on what the peer has sent. -/
theorem Opens.spares {α : Type} {m : SessionM α} (hm : Opens m) : SparesTexts m := by
  refine sparesTexts_of_error fun s e s' h => ?_
  cases hm.breaks h with
  | poisoned hkind =>
    obtain hkind | hkind := hkind
    · exact Fault.not_isOfText_of_kind hkind (by decide)
    · exact Fault.not_isOfText_of_kind hkind (by decide)
  | exhausted => decide

theorem spares_openPayload (h : FrameHeader) (sealed : Bytes) :
    SparesTexts (openPayload S h sealed) := by
  refine (opens_openPieces _ _).spares.bind fun payload => ?_
  cases hmake : Frame.make h.extensionType h.messageType payload with
  | ok f => exact .pure f
  | error e => exact .throw (Frame.not_isOfText_of_make hmake)

theorem spares_currentHeader (data : Bytes) : SparesTexts (currentHeader S data) := by
  refine .get_bind fun s _ => ?_
  cases s.pendingHeader with
  | some h => exact .pure _
  | none =>
    refine .ite (.pure _) ?_
    refine (opens_openHeader _).spares.bind fun h => ?_
    exact .bind (.modifies fun _ _ => trivial) fun _ => .pure _

theorem spares_read (data : Bytes) : SparesTexts (read S data) := by
  refine .bind (.get_bind fun s _ => .ite ?_ (.pure _)) fun _ => ?_
  · exact .throw (by decide)
  · refine (spares_currentHeader data).bind fun header => ?_
    cases header with
    | none => exact .pure _
    | some h =>
      refine .ite (.pure _) ?_
      refine .bind (.modifies fun _ _ => trivial) fun _ => ?_
      exact (spares_openPayload h _).bind fun f => .pure _

end Session

/-! ### Messages of the handshake -/

namespace Initiator

open Step

variable {S : Suite} {i : Initiator} {e : Fault}

theorem spares_firstMessage (payload : Bytes) : SparesTexts (firstMessage S payload) := by
  refine .reject (.throw (by decide)) throw_ne_ok ?_
  refine .bind (sparesTexts_of_error fun entropy e rest h => ?_) fun ephemeral => .pure _
  exact Fault.not_isOfText_of_kind (KeyPair.kind_of_generate h) (by decide)

theorem not_isOfText_of_writeFirstMessage {payload : Bytes} {entropy : Entropy}
    (h : (i.writeFirstMessage S payload entropy).1 = .error e) : ¬ e.IsOfText := by
  unfold writeFirstMessage at h
  split at h
  · cases h
    decide
  · split at h
    · cases h
    · rename_i e' rest hfirst
      cases h
      exact (spares_firstMessage payload entropy trivial).2 e rest hfirst
  · cases h
    decide

theorem not_isOfText_of_readSecondMessage (hS : S.Exact) {message : Bytes}
    (h : (i.readSecondMessage S message).1 = .error e) : ¬ e.IsOfText := by
  unfold readSecondMessage at h
  split at h
  · cases h
    decide
  · split at h
    · cases h
    · rename_i e' hsecond
      cases h
      obtain ⟨cause, rfl, hkind⟩ | ⟨u, hverify⟩ := secondMessage_error hS hsecond
      · exact Fault.not_isOfText_of_kind hkind (by decide)
      · exact Fault.not_isOfText_of_kind (CertificateMessage.kind_of_verify hverify) (by decide)
  · cases h
    decide

theorem not_isOfText_of_intoSession {config : SessionConfig} (h : (i.intoSession config).1 = .error e) :
    ¬ e.IsOfText := by
  unfold intoSession at h
  split at h
  · cases h
    decide
  · split at h
    · rename_i e' hvalidate
      cases h
      exact Fault.not_isOfText_of_kind (failsOnSettings_unless e hvalidate) (by decide)
    · cases h
  · cases h
    decide

end Initiator

/-! ### Frames of a connection -/

namespace Connection

open Step

variable {S : Suite} {α : Type}

theorem spares_onTransport {x : TransportM α} (hx : SparesTexts x) : SparesTexts (onTransport x) := by
  apply hx.of_part Connection.transport fun _ h => h
  · intro c a t _ h
    exact ⟨a, _, Step.onPart_of_ok h, trivial⟩
  · intro c e t _ h
    exact ⟨_, Step.onPart_of_error h, trivial⟩

theorem spares_onSession {x : SessionM α} (hx : SparesTexts x) : SparesTexts (onSession x) := by
  apply hx.of_part Connection.session fun _ h => h
  · intro c a s _ h
    exact ⟨a, _, Step.onPart_of_ok h, trivial⟩
  · intro c e s _ h
    exact ⟨_, Step.onPart_of_error h, trivial⟩

theorem spares_sendFrame (f : Frame) : SparesTexts (sendFrame S f) :=
  (spares_onSession (Session.spares_encrypt S f)).bind fun sealed =>
    spares_onTransport (Transport.spares_send sealed)

theorem spares_receiveFrameWithin (fuel : Nat) : SparesTexts (receiveFrameWithin S fuel) := by
  induction fuel with
  | zero => exact spares_onTransport (Transport.spares_fail _)
  | succ fuel ih =>
    refine .get_bind fun c _ => ?_
    refine (spares_onSession (Session.spares_read _)).bind fun step => ?_
    cases step with
    | frame f consumed =>
      exact (spares_onTransport (.modifies fun _ _ => trivial)).bind fun _ => .pure f
    | incomplete needed =>
      refine .get_bind fun c _ => ?_
      exact (spares_onTransport (Transport.spares_fill _)).bind fun _ => ih

theorem spares_receiveFrame : SparesTexts (receiveFrame S) :=
  .get_bind fun _ _ => spares_receiveFrameWithin _

end Connection

/-! ### A miner and its connection -/

namespace Miner

variable {S : Suite} {c : MinerConfig}

/-- A fault of these kinds is that of a text of the settings that does not fit. -/
def BlamesText (c : MinerConfig) (e : Fault) : Prop :=
  e.IsOfText → (¬ FitsRequest c.host ∧ e = .codec (requestFault c.host)) ∨
    (¬ FitsRequest c.userIdentity ∧ e = .codec (requestFault c.userIdentity))

theorem blamesText_of_not_isOfText {e : Fault} (h : ¬ e.IsOfText) : BlamesText c e :=
  fun hkind => absurd hkind h

theorem blamesText_of_setupRequest {e : Fault} (h : setupRequest c = .error e) : BlamesText c e := by
  intro _
  by_cases hfits : FitsRequest c.host
  · obtain ⟨m, f, hm, -⟩ := exists_setup_frame_iff.2 hfits
    cases hm.symm.trans h
  · exact .inl ⟨hfits, Except.error.inj (h.symm.trans (setupRequest_of_not_fits hfits))⟩

theorem blamesText_of_channelRequest {e : Fault} (h : channelRequest c = .error e) : BlamesText c e := by
  intro _
  by_cases hfits : FitsRequest c.userIdentity
  · obtain ⟨m, f, hm, -⟩ := exists_channel_frame_iff.2 hfits
    cases hm.symm.trans h
  · exact .inr ⟨hfits, Except.error.inj (h.symm.trans (channelRequest_of_not_fits hfits))⟩

/-- A request has been sent only if its text fits. -/
def Phase.Fits (c : MinerConfig) : Phase → Prop
  | .connected _ => True
  | .handshake _ => True
  | .settingUp _ => FitsRequest c.host
  | .opening _ => FitsRequest c.host ∧ FitsRequest c.userIdentity

namespace Client

open Step

variable {α : Type}

/-- A miner has its settings, and the requests it has sent fit. -/
structure Fits (c : MinerConfig) (s : Client) : Prop where
  /-- The settings. -/
  config_eq : s.config = c
  /-- The requests. -/
  phase_fits : s.phase.Fits c

/-- A step of a miner keeps it so, and blames no text that fits. -/
abbrev Blames (c : MinerConfig) (x : EStateM Fault Client α) : Prop :=
  FailsWithin (Fits c) (BlamesText c) x

theorem blames_onTransport {x : TransportM α} (hx : SparesTexts x) : Blames c (onTransport x) := by
  apply hx.of_part Client.transport fun _ => blamesText_of_not_isOfText
  · intro s a t hs h
    exact ⟨a, _, Step.onPart_of_ok h, hs.config_eq, hs.phase_fits⟩
  · intro s e t hs h
    exact ⟨_, Step.onPart_of_error h, hs.config_eq, hs.phase_fits⟩

theorem blames_onConnection {phase : Session → Phase} (hphase : ∀ session, (phase session).Fits c)
    {session : Session} {x : ConnectionM α} (hx : SparesTexts x) : Blames c (onConnection phase session x) := by
  apply hx.of_part (fun s => ⟨s.transport, session⟩) fun _ => blamesText_of_not_isOfText
  · intro s a c' hs h
    exact ⟨_, _, onConnection_of_ok h, hs.config_eq, hphase c'.session⟩
  · intro s e c' hs h
    exact ⟨_, onConnection_of_error h, hs.config_eq, hphase c'.session⟩

/-- A result whose fault is none of a text. -/
theorem blames_orStop {y : Except Fault α} (hy : ∀ e, y = .error e → ¬ e.IsOfText) : Blames c (orStop y) :=
  .ofExcept fun e h => blamesText_of_not_isOfText (hy e h)

theorem blames_sendFirst (initiator : Initiator) : Blames c (sendFirst S initiator) := by
  refine .get_bind fun s _ => ?_
  refine .bind (.modifies fun _ h => ⟨h.config_eq, trivial⟩) fun _ => ?_
  refine (blames_orStop fun e => Initiator.not_isOfText_of_writeFirstMessage).bind fun message => ?_
  exact blames_onTransport (Transport.spares_sendHandshake message)

/-- A request fails for a text only if its message cannot be made; if it can, the text fits. -/
theorem blames_request {phase : Session → Phase} {session : Session} {message : MinerConfig → Except Fault Message}
    (hmessage : ∀ e, message c = .error e → BlamesText c e)
    (hphase : ∀ m, message c = .ok m → ∀ session, (phase session).Fits c) :
    Blames c (request S phase session message) := by
  refine .get_bind fun s hs => ?_
  rw [hs.config_eq]
  refine .bind_of_ok (.ofExcept hmessage) fun s₁ m s₂ hm => ?_
  obtain ⟨hm, -⟩ := Step.ofExcept_eq_ok_iff.1 hm
  refine (blames_orStop fun e h => ?_).bind fun f => ?_
  · obtain ⟨cause, -, rfl⟩ := Message.toFrame_eq_error_iff.1 h
    have hkind : (Fault.message m.type cause).kind = .malformedMessage := rfl
    exact Fault.not_isOfText_of_kind hkind (by decide)
  · exact (blames_onConnection (hphase m hm) (Connection.spares_sendFrame f)).bind fun _ => .pure _

theorem blames_shakeHands (hS : S.Exact) (initiator : Initiator) : Blames c (shakeHands S initiator) := by
  refine (blames_onTransport Transport.spares_receiveHandshake).bind fun second => ?_
  refine (blames_orStop fun e => Initiator.not_isOfText_of_readSecondMessage hS).bind fun _ => ?_
  refine .get_bind fun s _ => ?_
  refine (blames_orStop fun e => Initiator.not_isOfText_of_intoSession).bind fun session => ?_
  apply blames_request
  · intro e
    exact blamesText_of_setupRequest
  · intro m hm _
    exact fits_of_setupRequest hm

theorem blames_receiveReply {phase : Session → Phase} (hphase : ∀ session, (phase session).Fits c)
    {session : Session} : Blames c (receiveReply S phase session) := by
  refine (blames_onConnection hphase Connection.spares_receiveFrame).bind fun reply => ?_
  refine .bind (.bind (blames_orStop fun e h => ?_) fun _ => .pure _) fun _ => .pure _
  exact Fault.not_isOfText_of_kind (Frame.kind_of_decodeMessage_eq_error h) (by decide)

/-- **A turn blames no text that fits**, and sends no request with another. -/
theorem blames_turn (hS : S.Exact) : Blames c (turn S) := by
  refine .get_bind fun s hs => ?_
  have hfits := hs.phase_fits
  cases hphase : s.phase with
  | connected initiator => exact (blames_sendFirst initiator).bind fun _ => .pure _
  | handshake initiator => exact (blames_shakeHands hS initiator).bind fun _ => .pure _
  | settingUp session =>
    rw [hphase] at hfits
    have hreplied : ∀ session, (Phase.settingUp session).Fits c := fun _ => hfits
    refine (blames_receiveReply hreplied).bind fun session => ?_
    refine .bind ?_ fun _ => .pure _
    apply blames_request
    · intro e
      exact blamesText_of_channelRequest
    · intro m hm _
      exact ⟨hfits, fits_of_channelRequest hm⟩
  | opening session =>
    rw [hphase] at hfits
    have hreplied : ∀ session, (Phase.opening session).Fits c := fun _ => hfits
    refine .bind ((blames_receiveReply hreplied).bind fun _ => .pure _) fun _ => ?_
    exact .bind (.modifies fun _ h => ⟨h.config_eq, h.phase_fits⟩) fun _ => .pure _

/-- What a miner that has connected can come to be: any bytes arrive, in pieces, and perhaps nothing any more. -/
inductive Reached (S : Suite) (start : Client) : Runner Client → Prop where
  /-- Nothing has arrived. -/
  | connected : Reached S start (.go (program S) { state := start })
  /-- Bytes have arrived. -/
  | received {r : Runner Client} (pieces : List Bytes) :
    Reached S start r → Reached S start (r.receive (program S) pieces)
  /-- Nothing arrives any more, and perhaps nothing is taken. -/
  | ended {r : Runner Client} (broken : Bool) : Reached S start r → Reached S start (r.endInput (program S) broken)

/-- A miner has sent only what fits, and if it has stopped it blames no text that fits. -/
structure Blaming (c : MinerConfig) (r : Runner Client) : Prop where
  /-- The miner. -/
  fits : r.state.Fits c
  /-- The fault that has stopped it. -/
  blames : ∀ e, r.progress = .stopped e → BlamesText c e

theorem Blaming.go (hS : S.Exact) {r : Runner Client} (h : Blaming c r) : Blaming c (r.go (program S)) := by
  unfold Runner.go
  by_cases hended : r.progress.hasEnded = true
  · rw [if_pos hended]
    exact h
  · rw [if_neg hended]
    obtain ⟨hfits, hstopped⟩ := (blames_turn hS).takeTurns 4 h.fits
    refine ⟨?_, hstopped⟩
    by_cases hover : ((program S).run r.state).1.hasEnded = true
    · simp only [hover, if_true]
      exact ⟨hfits.config_eq, hfits.phase_fits⟩
    · simp only [hover]
      exact hfits

/-- What arrives changes neither the settings nor the phase. -/
theorem Reached.blaming (hS : S.Exact) {start : Client} (hstart : start.Fits c) {r : Runner Client}
    (h : Reached S start r) : Blaming c r := by
  induction h with
  | connected => exact Blaming.go hS ⟨hstart, nofun⟩
  | received pieces _ ih => exact Blaming.go hS ⟨⟨ih.fits.config_eq, ih.fits.phase_fits⟩, ih.blames⟩
  | ended broken _ ih => exact Blaming.go hS ⟨⟨ih.fits.config_eq, ih.fits.phase_fits⟩, ih.blames⟩

end Client

/-! ### Settings that have been checked -/

/-- What becomes of the texts of a miner's settings. -/
structure TextsDecide (S : Suite) (c : MinerConfig) : Prop where
  /-- The set-up can be made, and has a frame, exactly if the host fits. -/
  setup : (∃ m f, setupRequest c = .ok m ∧ m.toFrame = .ok f) ↔ FitsRequest c.host
  /-- The request for a channel can, and has, exactly if the user's identity is UTF-8. -/
  channel : (∃ m f, channelRequest c = .ok m ∧ m.toFrame = .ok f) ↔ Utf8.isValid c.userIdentity = true
  /-- A set-up whose host does not fit fails when it is due, and nothing is sent. -/
  setup_refused : ¬ FitsRequest c.host → ∀ (phase : Session → Phase) (session : Session) (s : Client),
    s.config = c → Client.request S phase session setupRequest s = .error (.codec (requestFault c.host)) s
  /-- So does a request for a channel whose identity is not UTF-8. -/
  channel_refused : ¬ Utf8.isValid c.userIdentity = true →
    ∀ (phase : Session → Phase) (session : Session) (s : Client), s.config = c →
      Client.request S phase session channelRequest s = .error (.codec .textNotUtf8) s
  /-- However the connection goes, no request is sent but with a text that fits, and no other text is blamed. -/
  reached : ∀ (authority : Key) (now : UInt32) (entropy : Entropy) (r : Runner Client),
    Client.Reached S (.make c authority now entropy) r →
      r.state.phase.Fits c ∧ ∀ e, r.progress = .stopped e → BlamesText c e

/-- A request whose message cannot be made. -/
theorem Client.request_of_error {phase : Session → Phase} {session : Session}
    {message : MinerConfig → Except Fault Message} {s : Client} {e : Fault} (h : message s.config = .error e) :
    request S phase session message s = .error e s :=
  (Step.bind_of_ok rfl).trans (Step.bind_of_error (Step.ofExcept_of_error h))

/-- **Of settings that have been checked the texts decide whether the requests can be sent**: the length
of the host and the bytes of both texts are only looked at when the connection stands. -/
theorem texts_decide_requests (hS : S.Exact) (hvalid : c.validate = .ok ()) : TextsDecide S c where
  setup := exists_setup_frame_iff
  channel := exists_channel_frame_iff.trans (fits_userIdentity_iff hvalid)
  setup_refused hfits phase session s hs := by
    apply Client.request_of_error
    rw [hs]
    exact setupRequest_of_not_fits hfits
  channel_refused hutf8 phase session s hs := by
    have hfits : ¬ FitsRequest c.userIdentity := fun hfits => hutf8 hfits.2
    apply Client.request_of_error
    rw [hs, channelRequest_of_not_fits hfits, requestFault, if_pos (length_userIdentity_le hvalid)]
  reached authority now entropy r hr := by
    have hstart : (Client.make c authority now entropy).Fits c := ⟨rfl, trivial⟩
    have hblaming := hr.blaming hS hstart
    exact ⟨hblaming.fits.phase_fits, hblaming.blames⟩

namespace Sample

/-- An address of this machine in 256 digits and dots. -/
def longHost : Bytes := List.replicate 247 0x30 ++ Utf8.ofString "177.0.0.1"

/-- Settings with this host. -/
def settings : MinerConfig :=
  { host := longHost, authorityPath := Utf8.ofString "authority.pub", userIdentity := Utf8.ofString "worker1" }

end Sample

open Sample

/-- The texts decide for a host that is too long. -/
theorem texts_decide_requests_to_longHost : settings.validate = .ok () ∧ TextsDecide Suite.standard settings :=
  ⟨by decide, texts_decide_requests Suite.standard_exact (by decide)⟩

/-- Settings that have been checked may have a text that cannot be sent: of the host it is only checked that
there is one. -/
theorem not_all_checked_requests_fit :
    ¬ ∀ c : MinerConfig, c.validate = .ok () →
      (∃ m f, setupRequest c = .ok m ∧ m.toFrame = .ok f) ∧
        ∃ m f, channelRequest c = .ok m ∧ m.toFrame = .ok f := by
  intro h
  obtain ⟨hsetup, -⟩ := h settings (by decide)
  have hfits : ¬ FitsRequest settings.host := by decide +kernel
  exact hfits (exists_setup_frame_iff.1 hsetup)

end Miner

end Stratum
