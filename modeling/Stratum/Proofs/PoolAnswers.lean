import Stratum.Proofs.MessageDispatch
import Stratum.Proofs.Reception
import Stratum.Proofs.SetupGate

/-!
# A pool answers every frame

A frame comes from a peer and may hold anything. A pool reads a message from it or does
not, chooses an answer or none, and sends the frame of what it has chosen; none of this can
fail, and what is sent can be read.

* `Message.Sendable`: a message that obeys its rule and is no longer than a piece has a
  frame, which is read as the message again. The answers of a pool are such messages.
* `Pool.answer_answersMessage`, `Pool.choose_chooses`: eight random bytes suffice to choose
  an answer. `Pool.AnswersMessage` and `Pool.Chooses` say what is chosen when.
* `Pool.answerFrame_answers`: what is sent is the frame of what is chosen.
* `Pool.Server.turn_settles`: a turn leaves the settings of a session alone, also when it
  fails, so that they are those of the pool in every server that it comes to be
  (`Pool.Server.Reached.settled`). That a frame is not too long to be sent depends on them.
* `Pool.Server.turn_of_receiveFrame`: when a frame is received and answered, the turn
  succeeds.
* **`Pool.survives_and_answers`**: all of this, for every frame.
-/

namespace Stratum

/-! ### Random numbers -/

namespace Random

variable {entropy : Entropy}

/-- Random bytes are there if there are so many. -/
theorem bytes_of_le {n : Nat} (hrequest : n ≤ maxRequest) (hlen : n ≤ entropy.length) :
    bytes n entropy = .ok (entropy.take n) (entropy.drop n) := by
  rw [bytes, if_pos hrequest, draw]
  exact if_pos (List.length_take_of_le hlen)

theorem word_of_le (hlen : 4 ≤ entropy.length) :
    word entropy = .ok (UInt32.ofNat (Bytes.toNatLE (entropy.take 4))) (entropy.drop 4) :=
  Step.bind_of_ok (bytes_of_le (by decide) hlen)

end Random

/-! ### Requests for channels -/

namespace Message

/-- Whether a message asks for a channel. -/
def asksForChannel (m : Message) : Bool :=
  m.type = .openStandardMiningChannel || m.type = .openExtendedMiningChannel

/-- The number of the request that a message makes or answers, if it is about opening a channel. -/
def requestId? : Message → Option UInt32
  | ⟨.openStandardMiningChannel, (m : OpenStandardMiningChannel)⟩ => some m.requestId
  | ⟨.openStandardMiningChannelSuccess, (m : OpenStandardMiningChannelSuccess)⟩ => some m.requestId
  | ⟨.openStandardMiningChannelError, (m : OpenStandardMiningChannelError)⟩ => some m.requestId
  | ⟨.openExtendedMiningChannel, (m : OpenExtendedMiningChannel)⟩ => some m.requestId
  | ⟨.openExtendedMiningChannelSuccess, (m : OpenExtendedMiningChannelSuccess)⟩ => some m.requestId
  | ⟨.openExtendedMiningChannelError, (m : OpenExtendedMiningChannelError)⟩ => some m.requestId
  | _ => none

/-- A message that has a frame of a header and one piece. -/
structure Sendable (m : Message) : Prop where
  /-- It obeys its rule. -/
  valid : Record.validate m.body = .ok ()
  /-- No message of its type is longer than a piece. -/
  short : Fields.maxLength (Record.layout m.type.Body) ≤ maxPiece

theorem Sendable.of_type {t : MessageType} {body : t.Body} (valid : Record.validate body = .ok ())
    (short : Fields.maxLength (Record.layout t.Body) ≤ maxPiece) : Sendable ⟨t, body⟩ := ⟨valid, short⟩

/-- Such a message has a frame that is read as the message again, and takes two nonces at most. -/
theorem Sendable.exists_frame {m : Message} (h : m.Sendable) :
    ∃ g, m.toFrame = .ok g ∧ g.decodeMessage = .ok (.message m) ∧ g.pieces.length ≤ 2 := by
  have hserialize : m.serialize = .ok (Fields.written (Record.layout m.type.Body) (Record.fields m.body)) :=
    Record.serialize_eq_ok_iff.2 ⟨h.valid, rfl⟩
  obtain ⟨g, hg⟩ := exists_toFrame_iff.2 ⟨_, hserialize⟩
  have hlength : g.payload.length ≤ maxPiece := by
    rw [← Except.ok.inj (hserialize.symm.trans (toFrame_eq_ok_iff.1 hg).1)]
    exact Nat.le_trans (Fields.length_written_le _ _) h.short
  refine ⟨g, hg, Frame.decodeMessage_of_toFrame hg, ?_⟩
  rw [Frame.length_pieces, pieceCount]
  rw [show maxPiece = 65519 from rfl] at hlength ⊢
  omega

end Message

namespace Pool

variable {accepted accepted' : Bool} {f : Frame} {entropy rest : Entropy}

/-! ### What is answered to a message -/

/-- What a pool answers to a request for a channel. -/
structure Opens (id : UInt32) (answer : Message) : Prop where
  /-- The answer is about the request. -/
  requestId : answer.requestId? = some id
  /-- It can be sent. -/
  sendable : answer.Sendable

theorem newPrefix_of_le (hlen : 4 ≤ entropy.length) :
    ∃ p, newPrefix entropy = .ok p (entropy.drop 4) ∧ p.toBytes.length = prefixLength := by
  have hfits : (entropy.take 4).length ≤ LengthBound.upTo32.max := by
    rw [List.length_take_of_le hlen]
    decide
  refine ⟨⟨entropy.take 4, hfits⟩, (Step.bind_of_ok (Random.bytes_of_le (by decide) hlen)).trans ?_,
    List.length_take_of_le hlen⟩
  rw [ByteString.ofBytes, dif_pos hfits]
  rfl

/-- Eight random bytes suffice for the number and the prefix of a channel. -/
theorem draws_channel (hlen : 8 ≤ entropy.length) : ∃ id p rest, p.toBytes.length = prefixLength ∧
    ∀ k : UInt32 → ByteString .upTo32 → Random Message,
      (Random.word >>= fun id => newPrefix >>= k id) entropy = k id p rest := by
  have hleft : 4 ≤ (entropy.drop 4).length := by
    rw [List.length_drop]
    omega
  obtain ⟨p, hprefix, hlength⟩ := newPrefix_of_le hleft
  have hword := Random.word_of_le (Nat.le_trans (by decide) hlen)
  exact ⟨_, p, _, hlength, fun k => (Step.bind_of_ok hword).trans (Step.bind_of_ok hprefix)⟩

/-- A request for a standard channel is answered. -/
theorem openStandard_opens (m : OpenStandardMiningChannel) (hlen : 8 ≤ entropy.length) :
    ∃ answer rest, openStandard m entropy = .ok answer rest ∧ Opens m.requestId answer := by
  unfold openStandard
  by_cases hunnamed : m.userIdentity.toBytes.isEmpty = true
  · rw [if_pos hunnamed]
    exact ⟨_, _, rfl, rfl, .of_type rfl (by decide)⟩
  · obtain ⟨_, _, rest, -, hdraws⟩ := draws_channel hlen
    rw [if_neg hunnamed]
    exact ⟨_, rest, hdraws _, rfl, .of_type rfl (by decide)⟩

/-- And for an extended channel. -/
theorem openExtended_opens (m : OpenExtendedMiningChannel) (hlen : 8 ≤ entropy.length) :
    ∃ answer rest, openExtended m entropy = .ok answer rest ∧ Opens m.requestId answer := by
  unfold openExtended
  by_cases hunnamed : m.userIdentity.toBytes.isEmpty = true
  · rw [if_pos hunnamed]
    exact ⟨_, _, rfl, rfl, .of_type rfl (by decide)⟩
  · obtain ⟨_, _, rest, -, hdraws⟩ := draws_channel hlen
    rw [if_neg hunnamed]
    exact ⟨_, rest, hdraws _, rfl, .of_type rfl (by decide)⟩

/-- What a pool answers to a message, and whether a set-up is accepted afterwards. -/
inductive AnswersMessage (m : Message) : (accepted : Bool) → Option Message → (accepted' : Bool) → Prop where
  /-- A set-up is accepted or refused. -/
  | setUp {accepted accepted' : Bool} {answer : Message} (setUp : m.type = .setupConnection)
    (sendable : answer.Sendable) : AnswersMessage m accepted (some answer) accepted'
  /-- A request for a channel is granted or refused, once a set-up is accepted. -/
  | channel {id : UInt32} {answer : Message} (asks : m.asksForChannel = true) (requestId : m.requestId? = some id)
    (opens : Opens id answer) : AnswersMessage m true (some answer) true
  /-- All else is passed over. -/
  | nothing {accepted : Bool} (setUp : m.type ≠ .setupConnection)
    (channel : accepted = true → m.asksForChannel = false) : AnswersMessage m accepted none accepted

/-- **Every message is answered**, if there are eight random bytes. -/
theorem answer_answersMessage (accepted : Bool) (m : Message) (hlen : 8 ≤ entropy.length) :
    ∃ chosen accepted' rest, answer accepted m entropy = .ok (chosen, accepted') rest ∧
      AnswersMessage m accepted chosen accepted' := by
  unfold answer
  split
  · rename_i m
    cases hsetup : answerSetup m with
    | ok success => exact ⟨_, _, _, rfl, .setUp rfl (.of_type rfl (by decide))⟩
    | error refusal => exact ⟨_, _, _, rfl, .setUp rfl (.of_type (validate_of_answerSetup hsetup) (by decide))⟩
  · rename_i m
    cases accepted with
    | false => exact ⟨_, _, _, rfl, .nothing nofun nofun⟩
    | true =>
      obtain ⟨reply, rest, hopen, hopens⟩ := openStandard_opens m hlen
      exact ⟨some reply, true, rest, Step.bind_of_ok hopen, .channel rfl rfl hopens⟩
  · rename_i m
    cases accepted with
    | false => exact ⟨_, _, _, rfl, .nothing nofun nofun⟩
    | true =>
      obtain ⟨reply, rest, hopen, hopens⟩ := openExtended_opens m hlen
      exact ⟨some reply, true, rest, Step.bind_of_ok hopen, .channel rfl rfl hopens⟩
  · rename_i hsetup hstandard hextended
    refine ⟨_, _, _, rfl, .nothing (fun h => ?_) fun _ => ?_⟩
    · obtain ⟨type, body⟩ := m
      cases h
      exact hsetup body rfl
    · obtain ⟨type, body⟩ := m
      cases type
      all_goals first | rfl | exact absurd rfl (hstandard body) | exact absurd rfl (hextended body)

/-! ### What is answered to a frame -/

/-- The message that a pool chooses to answer a frame with, if it chooses one, and whether a set-up is accepted
afterwards. -/
def choose (accepted : Bool) (f : Frame) : Random (Option Message × Bool) :=
  if f.hasUnknownProtocol then return (some ⟨.setupConnectionError, protocolRefusal⟩, accepted)
  else
    match f.decodeMessage with
    | .ok (.message m) => answer accepted m
    | _ => return (none, accepted)

/-- What a pool chooses for a frame. -/
inductive Chooses (f : Frame) : (accepted : Bool) → Option Message → (accepted' : Bool) → Prop where
  /-- A set-up for a subprotocol without a name is refused. -/
  | unnamed {accepted : Bool} (unknown : f.hasUnknownProtocol = true) :
    Chooses f accepted (some ⟨.setupConnectionError, protocolRefusal⟩) accepted
  /-- A frame that holds no message of the catalogue is passed over. -/
  | noMessage {accepted : Bool} (known : f.hasUnknownProtocol = false)
    (unread : ∀ m, f.decodeMessage ≠ .ok (.message m)) : Chooses f accepted none accepted
  /-- A message is answered. -/
  | message {accepted accepted' : Bool} {m : Message} {chosen : Option Message} (known : f.hasUnknownProtocol = false)
    (decoded : f.decodeMessage = .ok (.message m)) (answers : AnswersMessage m accepted chosen accepted') :
    Chooses f accepted chosen accepted'

theorem choose_chooses (accepted : Bool) (f : Frame) (hlen : 8 ≤ entropy.length) :
    ∃ chosen accepted' rest, choose accepted f entropy = .ok (chosen, accepted') rest ∧
      Chooses f accepted chosen accepted' := by
  unfold choose
  cases hunknown : f.hasUnknownProtocol with
  | true => exact ⟨_, _, _, rfl, .unnamed hunknown⟩
  | false =>
    cases hdecode : f.decodeMessage with
    | error e => exact ⟨_, _, _, rfl, .noMessage hunknown fun m h => nomatch hdecode.symm.trans h⟩
    | ok decoded =>
      cases decoded with
      | unsupported => exact ⟨_, _, _, rfl, .noMessage hunknown fun m h => nomatch hdecode.symm.trans h⟩
      | message m =>
        obtain ⟨chosen, accepted', rest, hanswer, hanswers⟩ := answer_answersMessage accepted m hlen
        exact ⟨chosen, accepted', rest, hanswer, .message hunknown hdecode hanswers⟩

/-- Whatever is chosen can be sent. -/
theorem Chooses.sendable {m : Message} (h : Chooses f accepted (some m) accepted') : m.Sendable := by
  cases h with
  | unnamed => exact .of_type rfl (by decide)
  | message _ _ answers =>
    cases answers with
    | setUp _ sendable => exact sendable
    | channel _ _ opens => exact opens.sendable

/-- The answer to a frame is the frame of the message chosen, if that has one. -/
theorem answerFrame_of_choose {chosen : Option Message} {reply : Option Frame}
    (hchoose : choose accepted f entropy = .ok (chosen, accepted') rest)
    (hframes : chosen.map Message.toFrame = reply.map .ok) :
    answerFrame accepted f entropy = .ok (reply, accepted') rest := by
  unfold choose at hchoose
  unfold answerFrame
  cases hunknown : f.hasUnknownProtocol with
  | true =>
    rw [hunknown] at hchoose
    cases hchoose
    cases reply with
    | none => cases hframes
    | some g => exact Step.bind_of_ok (Step.ofExcept_eq_ok_iff.2 ⟨Option.some.inj hframes, rfl⟩)
  | false =>
    rw [hunknown] at hchoose
    cases hdecode : f.decodeMessage with
    | error e =>
      rw [hdecode] at hchoose
      cases hchoose
      cases reply with
      | none => exact congrFun (if_pos (Frame.kind_of_decodeMessage_eq_error hdecode)) entropy
      | some g => cases hframes
    | ok decoded =>
      rw [hdecode] at hchoose
      cases decoded with
      | unsupported =>
        cases hchoose
        cases reply with
        | none => rfl
        | some g => cases hframes
      | message m =>
        refine (Step.bind_of_ok hchoose).trans ?_
        cases chosen with
        | none =>
          cases reply with
          | none => rfl
          | some g => cases hframes
        | some answer =>
          cases reply with
          | none => cases hframes
          | some g =>
            dsimp only
            rw [Option.some.inj hframes]
            rfl

/-- **Every frame is answered**, if there are eight random bytes: with the frame of the message chosen, or not at
all. -/
theorem answerFrame_answers (accepted : Bool) (f : Frame) (hlen : 8 ≤ entropy.length) :
    ∃ chosen reply accepted' rest, choose accepted f entropy = .ok (chosen, accepted') rest ∧
      answerFrame accepted f entropy = .ok (reply, accepted') rest ∧ Chooses f accepted chosen accepted' ∧
      reply.map Frame.decodeMessage = chosen.map (fun m => .ok (.message m)) ∧
      ∀ g, reply = some g → g.pieces.length ≤ 2 := by
  obtain ⟨chosen, accepted', rest, hchoose, hchooses⟩ := choose_chooses accepted f hlen
  cases chosen with
  | none => exact ⟨none, none, accepted', rest, hchoose, answerFrame_of_choose hchoose rfl, hchooses, rfl, nofun⟩
  | some answer =>
    obtain ⟨g, hframe, hdecode, hpieces⟩ := hchooses.sendable.exists_frame
    refine ⟨some answer, some g, accepted', rest, hchoose, ?_, hchooses, congrArg some hdecode, ?_⟩
    · exact answerFrame_of_choose hchoose (congrArg some hframe)
    · intro g' hg'
      cases hg'
      exact hpieces

/-! ### A server's sessions -/

namespace Server

variable {S : Suite} {s s' : Server} {session : Session} {config : SessionConfig}

/-- Every session of a server has the settings that the server gives to sessions. -/
structure Settled (config : SessionConfig) (s : Server) : Prop where
  /-- The settings of the server. -/
  config_eq : s.config = config
  /-- Those of its session, once it has one. -/
  session : ∀ session accepted, s.phase = .serving session accepted → session.config = config

/-- A step keeps a server settled, also when it fails; and what it gives when it succeeds has a property. -/
def Settles {α : Type} (config : SessionConfig) (x : EStateM Fault Server α) (P : α → Prop) : Prop :=
  ∀ s, Settled config s → Settled config (RecordM.after (x s)) ∧ ∀ a s', x s = .ok a s' → P a

namespace Settles

variable {α β : Type} {x : EStateM Fault Server α} {P : α → Prop}

theorem pure {a : α} (h : P a) : Settles config (Pure.pure a) P := by
  intro s hs
  refine ⟨hs, fun a' s' ha => ?_⟩
  cases ha
  exact h

theorem throw (e : Fault) : Settles config (MonadExcept.throw e) P := fun _ hs => ⟨hs, fun _ _ h => nomatch h⟩

theorem bind {g : α → EStateM Fault Server β} {Q : β → Prop} (hx : Settles config x P)
    (hg : ∀ a, P a → Settles config (g a) Q) : Settles config (x >>= g) Q := by
  intro s hs
  obtain ⟨hfirst, hP⟩ := hx s hs
  cases hr : x s with
  | error e s₁ =>
    rw [hr] at hfirst
    rw [Step.bind_of_error hr]
    exact ⟨hfirst, fun _ _ h => nomatch h⟩
  | ok a s₁ =>
    rw [hr] at hfirst
    rw [Step.bind_of_ok hr]
    exact hg a (hP a s₁ hr) s₁ hfirst

/-- A step on a part that has nothing to do with settings and phase. -/
theorem onPart {τ : Type} {part : Server → τ} {putBack : Server → τ → Server} (y : EStateM Fault τ α)
    (hconfig : ∀ s t, (putBack s t).config = s.config) (hphase : ∀ s t, (putBack s t).phase = s.phase) :
    Settles config (Stratum.onPart part putBack y) fun _ => True := by
  intro s hs
  have hkept (t : τ) : Settled config (putBack s t) :=
    ⟨(hconfig s t).trans hs.config_eq, fun session accepted h => hs.session session accepted ((hphase s t).symm.trans h)⟩
  cases h : y (part s) with
  | ok a t =>
    rw [Step.onPart_of_ok h]
    exact ⟨hkept t, fun _ _ _ => trivial⟩
  | error e t =>
    rw [Step.onPart_of_error h]
    exact ⟨hkept t, fun _ _ h => nomatch h⟩

theorem onTransport (y : TransportM α) : Settles config (Server.onTransport y) fun _ => True :=
  onPart y (fun _ _ => rfl) fun _ _ => rfl

theorem drawing (y : Random α) : Settles config (Server.drawing y) fun _ => True :=
  onPart y (fun _ _ => rfl) fun _ _ => rfl

/-- A step into the phase of serving, with a session that has the settings. -/
theorem modifyPhase {accepted : Bool} (hsession : session.config = config) :
    Settles config (modify fun s : Server => { s with phase := .serving session accepted }) fun _ => True := by
  intro s hs
  refine ⟨⟨hs.config_eq, fun session' accepted' h => ?_⟩, fun _ _ _ => trivial⟩
  cases h
  exact hsession

/-- A step of a connection that leaves the settings of its session alone. -/
theorem onConnection {y : ConnectionM α} {accepted : Bool} (hsession : session.config = config)
    (hy : ∀ c, (RecordM.after (y c)).session.config = c.session.config) :
    Settles config (Server.onConnection session accepted y) fun a => a.2.config = config := by
  intro s hs
  have hkept := hy ⟨s.transport, session⟩
  unfold Server.onConnection
  cases hr : y ⟨s.transport, session⟩ with
  | ok a c =>
    rw [hr] at hkept
    have hconfig := hkept.trans hsession
    refine ⟨⟨hs.config_eq, fun _ _ h => ?_⟩, fun a' s' h => ?_⟩
    · cases h
      exact hconfig
    · cases h
      exact hconfig
  | error e c =>
    rw [hr] at hkept
    refine ⟨⟨hs.config_eq, fun _ _ h => ?_⟩, fun a' s' h => ?_⟩
    · cases h
      exact hkept.trans hsession
    · cases h

end Settles

/-- Sending leaves the settings of a session alone. -/
theorem config_after_sendFrame (S : Suite) (f : Frame) (c : Connection) :
    (RecordM.after (Connection.sendFrame S f c)).session.config = c.session.config := by
  unfold Connection.sendFrame
  cases hencrypt : Session.encrypt S f c.session with
  | error e session =>
    rw [Step.bind_of_error (Step.onPart_of_error hencrypt), Session.state_of_encrypt_eq_error hencrypt]
    rfl
  | ok bs session =>
    obtain ⟨-, -, -, -, rfl⟩ := Session.encrypt_eq_ok_iff.1 hencrypt
    rw [Step.bind_of_ok (Step.onPart_of_ok hencrypt)]
    cases hsend : Transport.send bs c.transport with
    | ok _ t => simp only [Connection.onTransport, onPart, hsend]; rfl
    | error e t => simp only [Connection.onTransport, onPart, hsend]; rfl

/-- A session that a handshake hands out has the settings that it is handed out with. -/
theorem config_of_intoSession {r : Responder} (h : (r.intoSession config).1 = .ok session) :
    session.config = config := by
  unfold Responder.intoSession at h
  split at h
  · cases h
  · split at h
    · cases h
    · cases h
      rfl
  · cases h

theorem shakeHands_settles (S : Suite) (responder : Responder) :
    Settles config (shakeHands S responder) fun _ => True := by
  refine (Settles.onTransport _).bind fun first _ => ?_
  refine (Settles.drawing _).bind ?_
  rintro ⟨second, phase⟩ -
  refine (Settles.onTransport _).bind fun _ _ => ?_
  intro s hs
  rw [Step.get_bind]
  cases hsession : ({ responder with phase }.intoSession s.config).1 with
  | ok session => exact Settles.modifyPhase ((config_of_intoSession hsession).trans hs.config_eq) s hs
  | error cause => exact Settles.throw cause s hs

theorem serve_settles (S : Suite) {accepted : Bool} (hsession : session.config = config) :
    Settles config (serve S session accepted) fun _ => True := by
  refine (Settles.onConnection hsession fun c => (Connection.receiveFrame_leavesSending S c).2).bind ?_
  rintro ⟨f, session₁⟩ hsession₁
  refine (Settles.drawing _).bind ?_
  rintro ⟨reply, accepted'⟩ -
  refine (Settles.modifyPhase hsession₁).bind fun _ _ => ?_
  cases reply with
  | none => exact .pure trivial
  | some g =>
    exact (Settles.onConnection hsession₁ (config_after_sendFrame S g)).bind fun _ _ => .pure trivial

/-- **A turn keeps a server settled**, also when it fails. -/
theorem turn_settles (S : Suite) : Settles config (turn S) fun _ => True := by
  intro s hs
  unfold turn
  rw [Step.get_bind]
  cases hphase : s.phase with
  | handshake responder => exact ((shakeHands_settles S responder).bind fun _ _ => .pure trivial) s hs
  | serving session accepted =>
    exact ((serve_settles S (hs.session session accepted hphase)).bind fun _ _ => .pure trivial) s hs

/-- The servers that a pool with some settings can come to be. -/
inductive Reached (S : Suite) (config : PoolConfig) : Server → Prop where
  /-- It has just accepted a connection. -/
  | made (responder : Responder) (entropy : Entropy) : Reached S config (make config responder entropy)
  /-- Bytes have arrived or have left, or the stream has ended or is broken. -/
  | moved {s : Server} (t : Transport) : Reached S config s → Reached S config { s with transport := t }
  /-- It has taken a turn, or has failed to. -/
  | turned {s : Server} : Reached S config s → Reached S config (RecordM.after (turn S s))

/-- Whatever a pool comes to be, its sessions have its settings. -/
theorem Reached.settled {config : PoolConfig} (h : Reached S config s) : Settled config.session s := by
  induction h with
  | made responder entropy => exact ⟨rfl, nofun⟩
  | moved t _ ih => exact ⟨ih.config_eq, ih.session⟩
  | turned _ ih => exact (turn_settles S _ ih).1

end Server

/-- The sessions of a pool that is started from the command line have the standard settings. -/
theorem session_of_configOf {bindHost port keysDir : Bytes} {validity : Option Bytes} {config : PoolConfig}
    (h : configOf bindHost port keysDir validity = .ok config) : config.session = {} := by
  obtain ⟨port, -, h⟩ := Attempt.bind_eq_ok_iff.1 h
  have hchecked {c c' : PoolConfig} (hc : (c.validate >>= fun _ => pure c) = .ok c') : c' = c := by
    obtain ⟨_, -, hc⟩ := Attempt.bind_eq_ok_iff.1 hc
    cases hc
    rfl
  cases validity with
  | none =>
    rw [hchecked h]
  | some text =>
    obtain ⟨seconds, -, h⟩ := Attempt.bind_eq_ok_iff.1 h
    rw [hchecked h]

/-! ### A turn of the server -/

/-- A frame that a pool passes over: it holds no message of the catalogue, or one other than a set-up before a
set-up is accepted. -/
def PassesOver (accepted : Bool) (f : Frame) : Prop :=
  (∃ e, f.decodeMessage = .error e) ∨ (∃ ext code payload, f.decodeMessage = .ok (.unsupported ext code payload)) ∨
    accepted = false ∧ ∃ m, f.decodeMessage = .ok (.message m) ∧ m.type ≠ .setupConnection

theorem Chooses.eq_none_of_passesOver {chosen : Option Message} (h : Chooses f accepted chosen accepted')
    (known : f.hasUnknownProtocol = false) (passes : PassesOver accepted f) :
    chosen = none ∧ accepted' = accepted := by
  cases h with
  | unnamed unknown => cases known.symm.trans unknown
  | noMessage => exact ⟨rfl, rfl⟩
  | message _ decoded answers =>
    rcases passes with ⟨e, he⟩ | ⟨_, _, _, hunsupported⟩ | ⟨rfl, m', hm', htype⟩
    · cases decoded.symm.trans he
    · cases decoded.symm.trans hunsupported
    · cases decoded.symm.trans hm'
      cases answers with
      | setUp setUp => exact absurd setUp htype
      | nothing => exact ⟨rfl, rfl⟩

/-- A request for a channel is answered if and only if a set-up is accepted, and under its number. -/
theorem Chooses.of_asksForChannel {chosen : Option Message} {m : Message} (h : Chooses f accepted chosen accepted')
    (decoded : f.decodeMessage = .ok (.message m)) (asks : m.asksForChannel = true) :
    chosen.isSome = accepted ∧
      ∀ answer, chosen = some answer → ∃ id, m.requestId? = some id ∧ answer.requestId? = some id := by
  cases h with
  | unnamed unknown =>
    obtain ⟨e, he⟩ := Frame.decodeMessage_of_hasUnknownProtocol unknown
    cases he.symm.trans decoded
  | noMessage _ unread => exact absurd decoded (unread m)
  | message _ decoded' answers =>
    cases decoded.symm.trans decoded'
    cases answers with
    | setUp setUp =>
      rw [Message.asksForChannel, setUp] at asks
      cases asks
    | channel _ requestId opens =>
      refine ⟨rfl, fun answer h => ?_⟩
      cases h
      exact ⟨_, requestId, opens.requestId⟩
    | nothing _ channel =>
      cases accepted with
      | false => exact ⟨rfl, nofun⟩
      | true => cases asks.symm.trans (channel rfl)

namespace Server

variable {S : Suite} {s : Server} {session : Session}

/-- **A turn in which a frame is received and answered succeeds**, and sends the answer, if there is one. -/
theorem turn_of_receiveFrame {c : Connection} {reply : Option Frame} (hs : Settled {} s)
    (hphase : s.phase = .serving session accepted) (hopen : s.transport.isOpen = true)
    (hbroken : s.transport.outputBroken = false) (hroom : 2 ≤ session.sending.room)
    (hreceive : Connection.receiveFrame S ⟨s.transport, session⟩ = .ok f c)
    (hanswer : answerFrame accepted f s.entropy = .ok (reply, accepted') rest)
    (hshort : ∀ g, reply = some g → g.pieces.length ≤ 2) :
    ∃ s' session', turn S s = .ok true s' ∧ s'.phase = .serving session' accepted' ∧ s'.entropy = rest ∧
      s'.transport.outgoing = s.transport.outgoing ++
        reply.elim [] (session.sending.sealedFrame S session.config.rekeyInterval) := by
  obtain ⟨⟨⟨_, _, _, ht⟩, -⟩, hsound, hsending, hconfig⟩ := Connection.receiveFrame_kept hopen hreceive
  have hstandard := hs.session session accepted hphase
  have hturn {s' : Server} (hserve : serve S session accepted s = .ok () s') : turn S s = .ok true s' := by
    unfold turn
    rw [Step.get_bind, hphase]
    exact Step.bind_of_ok hserve
  cases reply with
  | none =>
    have hserve := serve_eq_ok_iff.2 ⟨f, c, none, accepted', rest, c, hreceive, hanswer, rfl, rfl⟩
    refine ⟨_, c.session, hturn hserve, rfl, rfl, ?_⟩
    dsimp only [Option.elim]
    rw [ht, List.append_nil]
  | some g =>
    have hsends := Connection.sendFrame_sends S g (c := c) (by rw [ht]; exact hopen) (by rw [ht]; exact hbroken)
      hsound
    cases hsend : Connection.sendFrame S g c with
    | ok _ c' =>
      rw [hsend] at hsends
      cases hsends with
      | sent =>
        have hserve := serve_eq_ok_iff.2 ⟨f, c, some g, accepted', rest, _, hreceive, hanswer, hsend, rfl⟩
        refine ⟨_, _, hturn hserve, rfl, rfl, ?_⟩
        dsimp only [Option.elim]
        rw [ht, hsending, hconfig]
    | error e c' =>
      rw [hsend] at hsends
      cases hsends with
      | refused excess =>
        refine absurd ⟨?_, ?_⟩ excess
        · rw [hconfig, hstandard]
          exact g.payload_le
        · rw [hsending]
          exact Nat.le_trans (hshort g rfl) hroom

end Server

/-- **A pool survives and answers every frame.** The sessions of every server that a pool from the command line can
come to be have the standard settings. And for such a session, whether a set-up is accepted or not, and whatever frame
is received: if eight random bytes and two nonces are left and the connection works, the turn succeeds, and sends
one frame or none; the frame is read as the message that the pool has chosen. A request for a channel is answered
under its number, once a set-up is accepted. Frames that are malformed, except for a set-up for a subprotocol without
a name, or not supported, or received before a set-up is accepted, are passed over: nothing is sent, and whether a
set-up is accepted stays as it is. -/
theorem survives_and_answers (S : Suite) :
    (∀ bindHost port keysDir validity config s, configOf bindHost port keysDir validity = .ok config →
      Server.Reached S config s → Server.Settled {} s) ∧
    ∀ (accepted : Bool) (f : Frame) (entropy : Entropy), 8 ≤ entropy.length →
      ∃ chosen reply accepted' rest, choose accepted f entropy = .ok (chosen, accepted') rest ∧
        answerFrame accepted f entropy = .ok (reply, accepted') rest ∧
        reply.map Frame.decodeMessage = chosen.map (fun m => .ok (.message m)) ∧
        (∀ m, f.decodeMessage = .ok (.message m) → m.asksForChannel = true → chosen.isSome = accepted ∧
          ∀ answer, chosen = some answer → ∃ id, m.requestId? = some id ∧ answer.requestId? = some id) ∧
        (f.hasUnknownProtocol = false → PassesOver accepted f → reply = none ∧ accepted' = accepted) ∧
        ∀ (s : Server) (session : Session) (c : Connection), Server.Settled {} s → s.entropy = entropy →
          s.phase = .serving session accepted → s.transport.isOpen = true → s.transport.outputBroken = false →
          2 ≤ session.sending.room → Connection.receiveFrame S ⟨s.transport, session⟩ = .ok f c →
            ∃ s' session', Server.turn S s = .ok true s' ∧ s'.phase = .serving session' accepted' ∧ s'.entropy = rest ∧
              s'.transport.outgoing = s.transport.outgoing ++
                reply.elim [] (session.sending.sealedFrame S session.config.rekeyInterval) := by
  refine ⟨fun bindHost port keysDir validity config s hconfig hreached => ?_, fun accepted f entropy hlen => ?_⟩
  · have hsettled := hreached.settled
    rwa [session_of_configOf hconfig] at hsettled
  · obtain ⟨chosen, reply, accepted', rest, hchoose, hanswer, hchooses, hread, hshort⟩ :=
      answerFrame_answers accepted f hlen
    refine ⟨chosen, reply, accepted', rest, hchoose, hanswer, hread, ?_, fun known passes => ?_, ?_⟩
    · exact fun m decoded asks => hchooses.of_asksForChannel decoded asks
    · obtain ⟨rfl, rfl⟩ := hchooses.eq_none_of_passesOver known passes
      exact ⟨Option.map_eq_none_iff.1 hread, rfl⟩
    · intro s session c hs hentropy hphase hopen hbroken hroom hreceive
      rw [← hentropy] at hanswer
      exact Server.turn_of_receiveFrame hs hphase hopen hbroken hroom hreceive hanswer hshort

namespace Sample

/-- A session of a pool with the standard settings. -/
def session : Session := { Session.Sample.receiver with config := {} }

/-- A server to which a frame has arrived, sealed with the suite of the protocol. -/
def server (f : Frame) : Server where
  config := {}
  transport := { incoming := [session.receiving.sealedFrame Suite.standard session.config.rekeyInterval f] }
  phase := .serving session false
  entropy := List.replicate 8 0

theorem exists_receiveFrame_server (f : Frame) (hroom : f.pieces.length ≤ session.receiving.room) :
    ∃ c, Connection.receiveFrame Suite.standard ⟨(server f).transport, session⟩ = .ok f c := by
  have hS := Suite.standard_exact.toSealing
  have hstream : (server f).transport.unreadBytes ++ []
      = session.receiving.sealedFrames Suite.standard session.config.rekeyInterval [f] := by
    rw [Transport.unreadBytes, server, List.append_nil, List.flatten_singleton]
    exact (List.append_nil _).symm
  have hfits : ∀ g ∈ [f].head?, g.payload.length ≤ session.config.maxPayload.toNat ∧
      g.pieces.length ≤ session.receiving.room := by
    intro g hg
    cases hg
    exact ⟨f.payload_le, hroom⟩
  have hreceives := Connection.receiveFrame_receives (c := ⟨(server f).transport, session⟩) hS rfl rfl
    (.header rfl rfl) hstream hfits
  generalize Connection.receiveFrame Suite.standard ⟨(server f).transport, session⟩ = r at hreceives
  cases hreceives with
  | frame => exact ⟨_, rfl⟩
  | wait missing =>
    have hshort := missing f rfl
    rw [← Transport.length_unreadBytes, ← List.append_nil (Transport.unreadBytes _), hstream,
      Direction.sealedFrames, Direction.sealedFrames, List.append_nil, Direction.length_sealedFrame hS] at hshort
    exact absurd hshort (Nat.lt_irrefl _)

end Sample

open Sample in
/-- On the suite of the protocol, a pool receives a set-up for mining, accepts it, and says so in one frame. -/
theorem survives_and_answers_on_sample :
    ∃ g s' session', Server.turn Suite.standard (server setUp) = .ok true s' ∧ s'.phase = .serving session' true ∧
      s'.transport.outgoing = session.sending.sealedFrame Suite.standard 0 g ∧
      ∃ success : SetupConnectionSuccess, g.decodeMessage = .ok (.message ⟨.setupConnectionSuccess, success⟩) := by
  obtain ⟨c, hreceive⟩ := exists_receiveFrame_server setUp (by rw [Frame.length_pieces]; decide)
  obtain ⟨chosen, reply, accepted', rest, hchoose, hanswer, hread, -, -, hturn⟩ :=
    (survives_and_answers Suite.standard).2 false setUp (List.replicate 8 0) (by decide)
  obtain ⟨s', session', hok, hphase, -, hsent⟩ :=
    hturn (server setUp) session c ⟨rfl, fun _ _ h => by cases h; rfl⟩ rfl rfl rfl rfl (by decide) hreceive
  have haccepts : choose false setUp (List.replicate 8 0)
      = .ok (some ⟨.setupConnectionSuccess, ({} : SetupConnectionSuccess)⟩, true) (List.replicate 8 0) := rfl
  cases haccepts.symm.trans hchoose
  cases reply with
  | none => cases hread
  | some g => exact ⟨g, s', session', hok, hphase, hsent, _, Option.some.inj hread⟩

end Pool

end Stratum
