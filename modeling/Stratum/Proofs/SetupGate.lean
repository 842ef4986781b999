import Stratum.Pool.Server
import Stratum.Proofs.MessageFrames

/-!
# Channels behind a set-up

A pool opens channels once it has accepted a set-up, and a set-up that it refuses ends
that. This module follows a pool through the frames that it receives and says how far
the second half is true.

* `Pool.answerFrame_moves`: what one frame does, over all frames that there are. A
  refusal withdraws the acceptance, except for one: the refusal of a set-up whose
  subprotocol has no name leaves it as it is.
* `Pool.Server.turns_of_serve`: a connection is served in turns, one for each frame.
* **`Pool.gated_by_named_setups`**: whenever a pool opens a channel, its last answer to a
  set-up with a named subprotocol was that it accepts.
* `Pool.not_gated_by_all_setups`: its last answer to any set-up may have been a refusal.
-/

namespace Stratum

/-- A frame made of a message holds it. -/
theorem Frame.decodeMessage_of_toFrame {m : Message} {f : Frame} (h : m.toFrame = .ok f) :
    f.decodeMessage = .ok (.message m) := by
  obtain ⟨hpayload, htype, hext⟩ := Message.toFrame_eq_ok_iff.1 h
  have hbody := Record.deserialize_eq_ok_iff.2 (Record.serialize_eq_ok_iff.1 hpayload)
  exact decodeMessage_eq_message_iff.2 ⟨hbody, htype, hext⟩

namespace Pool

/-! ### Turns -/

/-- A frame that a pool has received, with its answer. -/
structure Turn where
  /-- The frame. -/
  frame : Frame
  /-- The answer, if there is one. -/
  reply : Option Frame
  deriving DecidableEq

/-- The turns of a pool that receives frames, up to the first frame that it fails on. -/
def turns : (accepted : Bool) → List Frame → Entropy → List Turn
  | _, [], _ => []
  | accepted, f :: frames, entropy =>
    match answerFrame accepted f entropy with
    | .ok (reply, accepted) entropy => ⟨f, reply⟩ :: turns accepted frames entropy
    | .error _ _ => []

namespace Turn

/-- The type of the message that a frame holds. -/
def typeOf? (f : Frame) : Option MessageType :=
  match f.decodeMessage with
  | .ok (.message m) => some m.type
  | _ => none

/-- The type of the answer. -/
def answered (t : Turn) : Option MessageType := t.reply.bind typeOf?

/-- The answer, if it is one to a set-up: that the pool accepts it, or that it refuses it. -/
def setupAnswer (t : Turn) : Option MessageType :=
  t.answered.filter fun type => type = .setupConnectionSuccess || type = .setupConnectionError

/-- Whether the answer opens a channel. -/
def opensChannel (t : Turn) : Bool :=
  t.answered = some .openStandardMiningChannelSuccess || t.answered = some .openExtendedMiningChannelSuccess

/-- Whether the frame sets up a connection for a subprotocol that has a name, or does something else. -/
def isNamed (t : Turn) : Bool := !t.frame.hasUnknownProtocol

/-- What one turn does to the acceptance of a set-up. -/
inductive Moves : (accepted : Bool) → Turn → (accepted' : Bool) → Prop where
  /-- A subprotocol without a name is refused, and nothing changes. -/
  | unnamed {accepted : Bool} {t : Turn} (named : t.isNamed = false)
      (answered : t.answered = some .setupConnectionError) : Moves accepted t accepted
  /-- A set-up is accepted. -/
  | setUp {accepted : Bool} {t : Turn} (named : t.isNamed = true)
      (answered : t.answered = some .setupConnectionSuccess) : Moves accepted t true
  /-- A set-up is refused. -/
  | refused {accepted : Bool} {t : Turn} (named : t.isNamed = true)
      (answered : t.answered = some .setupConnectionError) : Moves accepted t false
  /-- A request for a channel is answered, which happens behind an accepted set-up only. -/
  | channel {t : Turn} (named : t.isNamed = true) (setup : t.setupAnswer = none) : Moves true t true
  /-- Nothing is answered. -/
  | passed {accepted : Bool} {t : Turn} (named : t.isNamed = true) (answered : t.answered = none) :
      Moves accepted t accepted

end Turn

/-! ### One turn -/

theorem typeOf?_of_toFrame {m : Message} {f : Frame} (h : m.toFrame = .ok f) :
    Turn.typeOf? f = some m.type := by
  rw [Turn.typeOf?, Frame.decodeMessage_of_toFrame h]

theorem Turn.isNamed_of_hasUnknownProtocol {f : Frame} (h : f.hasUnknownProtocol = false)
    (reply : Option Frame) : Turn.isNamed ⟨f, reply⟩ = true := by
  rw [Turn.isNamed, h]
  rfl

theorem openStandard_type {m : OpenStandardMiningChannel} {reply : Message} {e e' : Entropy}
    (h : openStandard m e = .ok reply e') : reply.type = .openStandardMiningChannelError ∨
      reply.type = .openStandardMiningChannelSuccess := by
  unfold openStandard at h
  split at h
  · cases h
    exact .inl rfl
  · obtain ⟨_, _, -, h⟩ := Step.bind_eq_ok_iff.1 h
    obtain ⟨_, _, -, h⟩ := Step.bind_eq_ok_iff.1 h
    cases h
    exact .inr rfl

theorem openExtended_type {m : OpenExtendedMiningChannel} {reply : Message} {e e' : Entropy}
    (h : openExtended m e = .ok reply e') : reply.type = .openExtendedMiningChannelError ∨
      reply.type = .openExtendedMiningChannelSuccess := by
  unfold openExtended at h
  split at h
  · cases h
    exact .inl rfl
  · obtain ⟨_, _, -, h⟩ := Step.bind_eq_ok_iff.1 h
    obtain ⟨_, _, -, h⟩ := Step.bind_eq_ok_iff.1 h
    cases h
    exact .inr rfl

/-- A refusal obeys the rule of refusals. -/
theorem validate_of_answerSetup {m : SetupConnection} {refusal : SetupConnectionError}
    (h : answerSetup m = .error refusal) : refusal.validate = .ok () := by
  unfold answerSetup at h
  split at h
  · cases h
    rfl
  · split at h
    · cases h
      rfl
    · dsimp only at h
      split at h
      · rename_i hflags
        cases h
        unfold SetupConnectionError.validate MessageFault.rejectIf
        simp [hflags]
      · cases h

/-- What a pool answers to a message, and what that does to the acceptance. -/
inductive Answers : (accepted : Bool) → Option Message → (accepted' : Bool) → Prop where
  /-- Nothing. -/
  | nothing {accepted : Bool} : Answers accepted none accepted
  /-- A set-up is accepted. -/
  | setUp {accepted : Bool} (success : SetupConnectionSuccess) :
      Answers accepted (some ⟨.setupConnectionSuccess, success⟩) true
  /-- A set-up is refused. -/
  | refused {accepted : Bool} (refusal : SetupConnectionError) (valid : refusal.validate = .ok ()) :
      Answers accepted (some ⟨.setupConnectionError, refusal⟩) false
  /-- A channel is opened or not. -/
  | channel {reply : Message}
      (setup : reply.type ≠ .setupConnectionSuccess ∧ reply.type ≠ .setupConnectionError) :
      Answers true (some reply) true

theorem answer_answers {accepted accepted' : Bool} {m : Message} {reply : Option Message} {e e' : Entropy}
    (h : answer accepted m e = .ok (reply, accepted') e') : Answers accepted reply accepted' := by
  unfold answer at h
  split at h
  · rename_i m
    cases hsetup : answerSetup m with
    | ok success =>
      rw [hsetup] at h
      cases h
      exact .setUp success
    | error refusal =>
      rw [hsetup] at h
      cases h
      exact .refused refusal (validate_of_answerSetup hsetup)
  · cases accepted with
    | false =>
      cases h
      exact .nothing
    | true =>
      obtain ⟨_, _, hopen, h⟩ := Step.bind_eq_ok_iff.1 h
      cases h
      rcases openStandard_type hopen with htype | htype <;> exact .channel (by rw [htype]; decide)
  · cases accepted with
    | false =>
      cases h
      exact .nothing
    | true =>
      obtain ⟨_, _, hopen, h⟩ := Step.bind_eq_ok_iff.1 h
      cases h
      rcases openExtended_type hopen with htype | htype <;> exact .channel (by rw [htype]; decide)
  · cases h
    exact .nothing

theorem dropMalformed_eq_ok {accepted accepted' : Bool} {cause : Fault} {reply : Option Frame}
    {e e' : Entropy} (h : dropMalformed accepted cause e = .ok (reply, accepted') e') :
    reply = none ∧ accepted' = accepted := by
  unfold dropMalformed at h
  split at h
  · cases h
    exact ⟨rfl, rfl⟩
  · cases h

/-- An answer does what it does in the frame that it is sent in. -/
theorem Answers.moves_frame {accepted accepted' : Bool} {f g : Frame} {m : Message}
    (h : Answers accepted (some m) accepted') (named : f.hasUnknownProtocol = false)
    (hframe : m.toFrame = .ok g) :
    Turn.Moves accepted ⟨f, some g⟩ accepted' := by
  have htype := typeOf?_of_toFrame hframe
  cases h with
  | setUp => exact .setUp (Turn.isNamed_of_hasUnknownProtocol named _) htype
  | refused => exact .refused (Turn.isNamed_of_hasUnknownProtocol named _) htype
  | channel setup =>
    have hanswered : Turn.answered ⟨f, some g⟩ = some m.type := htype
    exact .channel (Turn.isNamed_of_hasUnknownProtocol named _) (by simp [Turn.setupAnswer, hanswered, setup])

/-- Of the answers only those about channels may have no frame. -/
theorem Answers.moves_nothing {accepted accepted' : Bool} {f : Frame} {m : Message} {cause : Fault}
    (h : Answers accepted (some m) accepted') (named : f.hasUnknownProtocol = false)
    (hframe : m.toFrame = .error cause) :
    Turn.Moves accepted ⟨f, none⟩ accepted' := by
  obtain ⟨_, hinvalid, -⟩ := Message.toFrame_eq_error_iff.1 hframe
  cases h with
  | setUp => cases hinvalid
  | refused _ valid => cases valid.symm.trans hinvalid
  -- whether every such answer has a frame plays no part: without one, nothing is sent
  | channel => exact .passed (Turn.isNamed_of_hasUnknownProtocol named _) rfl

/-- **What one turn does.** -/
theorem answerFrame_moves {accepted accepted' : Bool} {f : Frame} {reply : Option Frame} {e e' : Entropy}
    (h : answerFrame accepted f e = .ok (reply, accepted') e') :
    Turn.Moves accepted ⟨f, reply⟩ accepted' := by
  unfold answerFrame at h
  split at h
  · rename_i hunknown
    obtain ⟨refusal, _, hrefusal, h⟩ := Step.bind_eq_ok_iff.1 h
    obtain ⟨hframe, -⟩ := Step.ofExcept_eq_ok_iff.1 hrefusal
    cases h
    exact .unnamed (by rw [Turn.isNamed, hunknown]; rfl) (typeOf?_of_toFrame hframe)
  · rename_i hknown
    have named := eq_false_of_ne_true hknown
    have isNamed := Turn.isNamed_of_hasUnknownProtocol named
    cases hdecode : f.decodeMessage with
    | error cause =>
      rw [hdecode] at h
      obtain ⟨rfl, rfl⟩ := dropMalformed_eq_ok h
      exact .passed (isNamed _) rfl
    | ok decoded =>
      rw [hdecode] at h
      cases decoded with
      | unsupported => cases h; exact .passed (isNamed _) rfl
      | message m =>
        obtain ⟨⟨answered, accepted₁⟩, e₁, hanswer, h⟩ := Step.bind_eq_ok_iff.1 h
        have hanswers := answer_answers hanswer
        cases answered with
        | none =>
          cases h
          cases hanswers
          exact .passed (isNamed _) rfl
        | some reply =>
          dsimp only at h
          cases hframe : reply.toFrame with
          | ok g =>
            rw [hframe] at h
            cases h
            exact hanswers.moves_frame named hframe
          | error cause =>
            rw [hframe] at h
            obtain ⟨rfl, rfl⟩ := dropMalformed_eq_ok h
            exact hanswers.moves_nothing named hframe

/-! ### Runs -/

/-- The last answer to a set-up in the turns that count. -/
def lastSetupAnswer (counts : Turn → Bool) (ts : List Turn) : Option MessageType :=
  ((ts.filter counts).filterMap Turn.setupAnswer).getLast?

/-- Whenever a channel is opened, the last answer to a set-up, of those that count, is that the pool
accepts it. -/
def Gated (counts : Turn → Bool) (ts : List Turn) : Prop :=
  ∀ before t after, ts = before ++ t :: after → t.opensChannel = true →
    lastSetupAnswer counts before = some .setupConnectionSuccess

/-- Whether the last answer to a set-up with a name is that the pool accepts it. -/
def accepts (ts : List Turn) : Bool := lastSetupAnswer Turn.isNamed ts = some .setupConnectionSuccess

theorem lastSetupAnswer_concat {counts : Turn → Bool} {ts : List Turn} {t : Turn} :
    lastSetupAnswer counts (ts ++ [t]) =
      if counts t then t.setupAnswer.or (lastSetupAnswer counts ts) else lastSetupAnswer counts ts := by
  unfold lastSetupAnswer
  cases hcounts : counts t with
  | false => simp [hcounts]
  | true => cases hanswer : t.setupAnswer <;> simp [hcounts, hanswer]

namespace Turn.Moves

variable {accepted accepted' : Bool} {t : Turn}

/-- A channel is opened only if a set-up is accepted. -/
theorem accepted_of_opensChannel (h : Moves accepted t accepted') (hopens : t.opensChannel = true) :
    accepted = true := by
  cases h with
  | channel => rfl
  | unnamed _ answered => simp [opensChannel, answered] at hopens
  | setUp _ answered => simp [opensChannel, answered] at hopens
  | refused _ answered => simp [opensChannel, answered] at hopens
  | passed _ answered => simp [opensChannel, answered] at hopens

/-- What a pool remembers of its answers agrees with them, one turn later. -/
theorem accepts_concat {past : List Turn} (h : Moves accepted t accepted') (hpast : accepted = accepts past) :
    accepted' = accepts (past ++ [t]) := by
  unfold accepts at hpast ⊢
  rw [lastSetupAnswer_concat]
  cases h with
  | unnamed named => rw [named]; exact hpast
  | setUp named answered => simp [named, setupAnswer, answered]
  | refused named answered => simp [named, setupAnswer, answered]
  | channel named setup => simp [setup, ← hpast]
  | passed named answered => simp [setupAnswer, answered, ← hpast]

end Turn.Moves

/-- Along every run, from any point of it, each frame is answered as the answers before it say. -/
theorem exists_answerFrame_of_turns {frames : List Frame} {accepted : Bool} {entropy : Entropy}
    (past : List Turn) (hpast : accepted = accepts past) {before after : List Turn} {t : Turn}
    (hturns : turns accepted frames entropy = before ++ t :: after) :
    ∃ e e' accepted', answerFrame (accepts (past ++ before)) t.frame e = .ok (t.reply, accepted') e' := by
  induction frames generalizing accepted entropy past before with
  | nil => simp [turns] at hturns
  | cons f frames ih =>
    unfold turns at hturns
    cases hanswer : answerFrame accepted f entropy with
    | error cause rest =>
      rw [hanswer] at hturns
      simp at hturns
    | ok answered rest =>
      obtain ⟨reply, accepted'⟩ := answered
      rw [hanswer] at hturns
      cases before with
      | nil =>
        obtain ⟨rfl, -⟩ := List.cons.inj hturns
        rw [List.append_nil, ← hpast]
        exact ⟨entropy, rest, accepted', hanswer⟩
      | cons t₀ before =>
        obtain ⟨rfl, hrest⟩ := List.cons.inj hturns
        have hnext := ih (past ++ [⟨f, reply⟩]) ((answerFrame_moves hanswer).accepts_concat hpast) hrest
        rwa [List.append_assoc, List.singleton_append] at hnext

/-! ### A server's turns -/

namespace Server

variable {S : Suite} {s s' : Server} {session : Session} {accepted : Bool}

theorem onConnection_eq_ok_iff {α : Type} {x : ConnectionM α} {a : α} {session' : Session} :
    onConnection session accepted x s = .ok (a, session') s' ↔
      ∃ c, x ⟨s.transport, session⟩ = .ok a c ∧ session' = c.session ∧
        s' = { s with transport := c.transport, phase := .serving c.session accepted } := by
  unfold onConnection
  cases x ⟨s.transport, session⟩ with
  | error cause c => simp
  | ok b c => simp [and_assoc, eq_comm]

/-- Serving receives a frame, answers it, and sends the answer, if there is one. -/
theorem serve_eq_ok_iff :
    serve S session accepted s = .ok () s' ↔
      ∃ f c reply accepted' entropy c', Connection.receiveFrame S ⟨s.transport, session⟩ = .ok f c ∧
        answerFrame accepted f s.entropy = .ok (reply, accepted') entropy ∧
        reply.forM (Connection.sendFrame S) c = .ok () c' ∧
        s' = { s with transport := c'.transport, phase := .serving c'.session accepted', entropy } := by
  constructor
  · intro h
    obtain ⟨⟨f, session₁⟩, s₁, hfirst, h⟩ := Step.bind_eq_ok_iff.1 h
    obtain ⟨c, hreceive, rfl, rfl⟩ := onConnection_eq_ok_iff.1 hfirst
    obtain ⟨⟨reply, accepted'⟩, s₂, hsecond, h⟩ := Step.bind_eq_ok_iff.1 h
    obtain ⟨entropy, hanswer, rfl⟩ := Step.onPart_eq_ok_iff.1 hsecond
    refine ⟨f, c, reply, accepted', entropy, ?_⟩
    cases reply with
    | none =>
      cases h
      exact ⟨c, hreceive, hanswer, rfl, rfl⟩
    | some g =>
      obtain ⟨_, _, hmodify, h⟩ := Step.bind_eq_ok_iff.1 h
      cases hmodify
      obtain ⟨⟨_, session₂⟩, _, hthird, h⟩ := Step.bind_eq_ok_iff.1 h
      obtain ⟨c', hsend, rfl, rfl⟩ := onConnection_eq_ok_iff.1 hthird
      cases h
      exact ⟨c', hreceive, hanswer, hsend, rfl⟩
  · rintro ⟨f, c, reply, accepted', entropy, c', hreceive, hanswer, hsend, rfl⟩
    refine Step.bind_eq_ok_iff.2 ⟨_, _, onConnection_eq_ok_iff.2 ⟨c, hreceive, rfl, rfl⟩, ?_⟩
    refine Step.bind_eq_ok_iff.2 ⟨_, _, Step.onPart_eq_ok_iff.2 ⟨entropy, hanswer, rfl⟩, ?_⟩
    cases reply with
    | none =>
      cases hsend
      rfl
    | some g =>
      refine Step.bind_eq_ok_iff.2 ⟨_, _, rfl, ?_⟩
      exact Step.bind_eq_ok_iff.2 ⟨_, _, onConnection_eq_ok_iff.2 ⟨c', hsend, rfl, rfl⟩, rfl⟩

/-- A frame that is served is a turn, with what the pool remembers and the random bytes that are left. -/
theorem turns_of_serve (h : serve S session accepted s = .ok () s') :
    ∃ t session' accepted', s'.phase = .serving session' accepted' ∧ ∀ frames,
      turns accepted (t.frame :: frames) s.entropy = t :: turns accepted' frames s'.entropy := by
  obtain ⟨f, c, reply, accepted', entropy, c', -, hanswer, -, rfl⟩ := serve_eq_ok_iff.1 h
  refine ⟨⟨f, reply⟩, c'.session, accepted', rfl, fun frames => ?_⟩
  rw [turns, hanswer]

end Server

/-! ### Channels behind a set-up -/

/-- **A pool opens channels only behind an accepted set-up**, if the set-ups whose subprotocol has no name are
left out. What it remembers of a connection is just that: each frame is answered as the last answer to a set-up
with a name says. And a connection is served in these turns, one for each frame that is received. -/
theorem gated_by_named_setups (frames : List Frame) (entropy : Entropy) :
    Gated Turn.isNamed (turns false frames entropy) ∧
      (∀ before t after, turns false frames entropy = before ++ t :: after →
        ∃ e e' accepted', answerFrame (accepts before) t.frame e = .ok (t.reply, accepted') e') ∧
      ∀ (S : Suite) (session : Session) (accepted : Bool) (s s' : Server), s.entropy = entropy →
        Server.serve S session accepted s = .ok () s' →
          ∃ t session' accepted', s'.phase = .serving session' accepted' ∧
            ∀ later, turns accepted (t.frame :: later) entropy = t :: turns accepted' later s'.entropy := by
  have hanswers : ∀ before t after, turns false frames entropy = before ++ t :: after →
      ∃ e e' accepted', answerFrame (accepts before) t.frame e = .ok (t.reply, accepted') e' :=
    fun _ _ _ hturns => exists_answerFrame_of_turns [] rfl hturns
  refine ⟨fun before t after hturns hopens => ?_, hanswers, fun S session accepted s s' hentropy h => ?_⟩
  · obtain ⟨_, _, _, hanswer⟩ := hanswers before t after hturns
    exact of_decide_eq_true ((answerFrame_moves hanswer).accepted_of_opensChannel hopens)
  · subst hentropy
    exact Server.turns_of_serve h

/-! ### The set-ups without a name -/

namespace Sample

/-- A set-up for mining, by the vendor `v` with the firmware `f`. -/
def setUp : Frame := ⟨0, 0, [0, 2, 0, 2, 0, 0, 0, 0, 0, 0, 0, 0, 1, 0x76, 0, 1, 0x66, 0], by decide⟩

/-- A set-up for the subprotocol 7, which has no name. -/
def unnamed : Frame := ⟨0, 0, [7], by decide⟩

/-- A request for a standard channel of the user `w`. -/
def request : Frame := ⟨0, 0x10, [7, 0, 0, 0, 1, 0x77, 0, 0, 0, 0] ++ List.replicate 32 0xff, by decide⟩

/-- A pool that receives all three: it accepts, refuses, and yet opens a channel. -/
def reopened : List Turn := turns false [setUp, unnamed, request] (List.replicate 8 0)

end Sample

open Sample in
/-- When a channel is opened, the last of all set-ups may have been refused. -/
theorem not_gated_by_all_setups :
    ¬ ∀ (frames : List Frame) (entropy : Entropy), Gated (fun _ => true) (turns false frames entropy) := by
  intro h
  have hturns : reopened = reopened.take 2 ++ reopened.getLast (by decide) :: [] := by decide
  have hsuccess := h _ _ _ _ _ hturns (by decide)
  revert hsuccess
  decide

end Pool

end Stratum
