import Stratum.Miner.Client
import Stratum.Proofs.Conversations
import Stratum.Proofs.SetupGate

/-!
# The turns of a miner and of a pool

What a turn awaits is a handshake message or an encrypted frame. This module says what
receiving and sending these does when the peer keeps to the protocol, and from that what
each turn of the two programs does: it waits for what the peer is to send, and answers it
(`Takes`, `Finishes`, `Idles`).

* `Session.Standing`: where a session is in both directions, when nothing has gone wrong.
* `Connection.receiveFrame_lacks`, `Connection.receiveFrame_takes`: a frame is received if
  it is there as a whole, whatever follows it, and otherwise all stays where it is.
* `Miner.Client.takes_handshake`, `Miner.Client.takes_reply`, `Miner.Client.finishes`: the
  turns of a miner after it has sent message 1.
* `Pool.Server.takes_handshake`, `Pool.Server.takes_frame`, `Pool.Server.idles`: those of a
  pool.
-/

namespace Stratum

/-! ### Handshake messages -/

namespace Transport

variable {t : Transport} {m part more sent unread : Bytes}

/-- A part of a message is not taken. -/
theorem receiveHandshake_lacks (hm : m.length < 65536) (hpart : part <+: framed m)
    (hshort : part.length < (framed m).length) (live : t.Live part sent) :
    ∃ t', receiveHandshake t = .error (.transport .receiveFailed) t' ∧ t'.Live part sent := by
  have hgives := receiveHandshake_gives live.isOpen
  generalize receiveHandshake t = r at hgives
  cases hgives with
  | @message m' t' fits bytes kept =>
    -- then the part would be the message
    obtain ⟨missing, hmissing⟩ := hpart
    rw [← live.bytes, bytes, List.append_assoc, ← List.append_nil (framed m)] at hmissing
    obtain ⟨rfl, hnone⟩ := framed_append_inj fits hm hmissing
    rw [← live.bytes, bytes, List.length_append] at hshort
    omega
  | lacking none bytes kept =>
    rw [live.inputEnded]
    exact ⟨_, rfl, live.of_kept kept (bytes.trans live.bytes)⟩

/-- A message is taken, whatever follows it. -/
theorem receiveHandshake_takes (hm : m.length < 65536) (live : t.Live (framed m ++ more) sent) :
    ∃ t', receiveHandshake t = .ok m t' ∧ t'.Live more sent := by
  have hgives := receiveHandshake_gives live.isOpen
  generalize receiveHandshake t = r at hgives
  cases hgives with
  | message fits bytes kept =>
    obtain ⟨rfl, hmore⟩ := framed_append_inj hm fits (live.bytes.symm.trans bytes)
    exact ⟨_, rfl, live.of_kept kept hmore.symm⟩
  | lacking none => exact absurd live.bytes (none m more hm)

theorem sendHandshake_live (hm : m.length ≤ maxNoiseMessage) (live : t.Live unread sent) :
    ∃ t', sendHandshake m t = .ok () t' ∧ t'.Live unread (sent ++ framed m) := by
  refine ⟨{ t with outgoing := t.outgoing ++ framed m }, ?_, ?_⟩
  · unfold sendHandshake
    rw [if_neg (Nat.not_lt.2 hm)]
    exact send_of_open live.isOpen live.outputBroken _
  · exact ⟨live.isOpen, live.inputEnded, live.outputBroken, live.bytes, congrArg (· ++ framed m) live.outgoing⟩

end Transport

/-! ### Frames -/

/-- A session with the standard settings that has not failed: it sends from `out` on, and awaits frames that are
sealed from `inward` on. -/
structure Session.Standing (S : Suite) (out inward : Direction) (frames : List Frame) (s : Session) : Prop where
  /-- The settings. -/
  config : s.config = {}
  /-- It has not failed. -/
  sound : s.poisoned = false
  /-- What is sent. -/
  sending : s.sending = out
  /-- What is awaited. -/
  awaits : s.Awaits S inward frames

namespace Connection

variable {S : Suite} {c : Connection} {out inward : Direction} {frames : List Frame} {f : Frame}
  {more sent unread : Bytes}

/-- A frame that is not there as a whole is not taken. -/
theorem receiveFrame_lacks (hS : S.Sealing) (h : c.session.Standing S out inward frames)
    (hopen : c.transport.isOpen = true) (hstream : c.transport.unreadBytes ++ more = inward.sealedFrames S 0 frames)
    (hroom : ∀ f ∈ frames.head?, f.pieces.length ≤ inward.room)
    (hmissing : ∀ f ∈ frames.head?, c.transport.unread < Session.frameSize f.header) :
    ∃ c', receiveFrame S c
        = .error (.transport (if c.transport.inputEnded then .peerClosed else .receiveFailed)) c' ∧
      c'.session.Standing S out inward frames ∧ c'.transport.unreadBytes = c.transport.unreadBytes ∧
        c.transport.KeepsSending c'.transport := by
  have hinterval : c.session.config.rekeyInterval = 0 := by rw [h.config]
  have hcap : ∀ f ∈ frames.head?, f.payload.length ≤ c.session.config.maxPayload.toNat ∧
      f.pieces.length ≤ inward.room := by
    intro f hf
    rw [h.config]
    exact ⟨f.payload_le, hroom f hf⟩
  rw [← hinterval] at hstream
  have hreceives := receiveFrame_receives hS hopen h.sound h.awaits hstream hcap
  generalize receiveFrame S c = r at hreceives
  cases hreceives with
  | frame complete => exact absurd (hmissing _ rfl) (Nat.not_lt.2 complete)
  | wait missing bytes awaits kept =>
    obtain ⟨_, _, hs⟩ := kept.session
    refine ⟨_, rfl, ⟨?_, ?_, ?_, awaits⟩, bytes, kept.transport⟩
    · rw [hs]
      exact h.config
    · rw [hs]
      exact h.sound
    · rw [hs]
      exact h.sending

/-- A part of a frame is not taken. -/
theorem receiveFrame_part {part : Bytes} (hS : S.Sealing) (h : c.session.Standing S out inward [f])
    (hroom : f.pieces.length ≤ inward.room) (hpart : part <+: inward.sealedFrame S 0 f)
    (hshort : part.length < (inward.sealedFrame S 0 f).length) (live : c.transport.Live part sent) :
    ∃ c', receiveFrame S c = .error (.transport .receiveFailed) c' ∧ c'.session.Standing S out inward [f] ∧
      c'.transport.Live part sent := by
  obtain ⟨more, hmore⟩ := hpart
  rw [Direction.length_sealedFrame hS, ← live.bytes, Transport.length_unreadBytes] at hshort
  have hstream : c.transport.unreadBytes ++ more = inward.sealedFrames S 0 [f] := by
    rw [live.bytes, hmore]
    exact (List.append_nil _).symm
  obtain ⟨c', hreceive, h', bytes, kept⟩ := receiveFrame_lacks hS h live.isOpen hstream
    (fun g hg => by cases hg; exact hroom) (fun g hg => by cases hg; exact hshort)
  rw [live.inputEnded] at hreceive
  exact ⟨c', hreceive, h', live.of_kept kept (bytes.trans live.bytes)⟩

/-- When nothing has come and nothing is awaited, nothing is received. -/
theorem receiveFrame_nothing (hS : S.Sealing) (h : c.session.Standing S out inward [])
    (hopen : c.transport.isOpen = true) (hnone : c.transport.unreadBytes = []) :
    ∃ c', receiveFrame S c
        = .error (.transport (if c.transport.inputEnded then .peerClosed else .receiveFailed)) c' ∧
      c'.session.Standing S out inward [] ∧ c'.transport.unreadBytes = [] ∧
        c.transport.KeepsSending c'.transport := by
  have hstream : c.transport.unreadBytes ++ [] = inward.sealedFrames S 0 [] := by
    rw [hnone]
    rfl
  obtain ⟨c', hreceive, h', bytes, kept⟩ := receiveFrame_lacks hS h hopen hstream nofun nofun
  exact ⟨c', hreceive, h', bytes.trans hnone, kept⟩

/-- A frame is taken, whatever follows it. -/
theorem receiveFrame_takes (hS : S.Sealing) (h : c.session.Standing S out inward [f])
    (hroom : f.pieces.length ≤ inward.room) (live : c.transport.Live (inward.sealedFrame S 0 f ++ more) sent) :
    ∃ c', receiveFrame S c = .ok f c' ∧ c'.transport.Live more sent ∧
      ∀ frames, c'.session.Standing S out (inward.afterFrame S 0 f) frames := by
  have hinterval : c.session.config.rekeyInterval = 0 := by rw [h.config]
  have hlength : (inward.sealedFrame S 0 f).length = Session.frameSize f.header :=
    Direction.length_sealedFrame hS inward f
  -- its own bytes are read as the frame, and so they are with more behind them
  have hown : Session.read S (inward.sealedFrame S 0 f) c.session = .ok (.frame f (Session.frameSize f.header))
      { c.session with receiving := inward.afterFrame S 0 f, pendingHeader := none } := by
    have hstream : inward.sealedFrame S 0 f ++ [] = inward.sealedFrames S c.session.config.rekeyInterval [f] := by
      rw [hinterval]
      rfl
    have hreads := Session.read_of_awaits hS h.sound h.awaits hstream (by
      intro g hg
      cases hg
      rw [h.config]
      exact ⟨f.payload_le, hroom⟩)
    generalize Session.read S (inward.sealedFrame S 0 f) c.session = r at hreads
    cases hreads with
    | frame => rw [hinterval]
    | incomplete positive missing =>
      have hle := missing f rfl
      omega
  have hgives := receiveFrame_gives S live.isOpen
  rw [live.bytes, Session.read_of_isPrefix_of_frame hown (List.prefix_append _ _)] at hgives
  generalize receiveFrame S c = r at hgives
  cases hgives with
  | frame bytes kept =>
    rw [live.bytes, List.drop_left' hlength] at bytes
    exact ⟨_, rfl, live.of_kept kept bytes, fun frames => ⟨h.config, h.sound, h.sending, .header rfl rfl⟩⟩

theorem sendFrame_live (h : c.session.Standing S out inward frames) (hroom : f.pieces.length ≤ out.room)
    (live : c.transport.Live unread sent) :
    ∃ c', sendFrame S f c = .ok () c' ∧ c'.transport.Live unread (sent ++ out.sealedFrame S 0 f) ∧
      c'.session.Standing S (out.afterFrame S 0 f) inward frames := by
  have hinterval : c.session.config.rekeyInterval = 0 := by rw [h.config]
  have hsends := sendFrame_sends S f live.isOpen live.outputBroken h.sound
  generalize sendFrame S f c = r at hsends
  cases hsends with
  | sent =>
    refine ⟨_, rfl, ?_, h.config, h.sound, ?_, h.awaits.congr rfl rfl rfl⟩
    · refine ⟨live.isOpen, live.inputEnded, live.outputBroken, live.bytes, ?_⟩
      rw [live.outgoing, h.sending, hinterval]
    · dsimp only
      rw [h.sending, hinterval]
  | refused excess =>
    refine absurd ⟨?_, ?_⟩ excess
    · rw [h.config]
      exact f.payload_le
    · rw [h.sending]
      exact hroom

end Connection

theorem Direction.sealedFrame_ne_nil {S : Suite} (hS : S.Sealing) (d : Direction) (f : Frame) :
    d.sealedFrame S 0 f ≠ [] := by
  rw [← List.length_pos_iff, length_sealedFrame hS]
  exact Nat.lt_of_lt_of_le (by decide) (Session.sealedHeaderLength_le_frameSize f.header)

/-! ### A miner -/

namespace Miner.Client

variable {S : Suite} {s : Client} {config : MinerConfig} {phase : Session → Phase} {session : Session}
  {out inward : Direction} {frames : List Frame} {f g : Frame} {part unread sent : Bytes}

theorem onConnection_of_ok {α : Type} {x : ConnectionM α} {a : α} {c : Connection}
    (h : x ⟨s.transport, session⟩ = .ok a c) :
    onConnection phase session x s
      = .ok (a, c.session) { s with transport := c.transport, phase := phase c.session } := by
  rw [onConnection, h]

theorem onConnection_of_error {α : Type} {x : ConnectionM α} {e : Fault} {c : Connection}
    (h : x ⟨s.transport, session⟩ = .error e c) :
    onConnection phase session x s
      = .error e { s with transport := c.transport, phase := phase c.session } := by
  rw [onConnection, h]

theorem orStop_of_ok {α : Type} {x : Except Fault α} {a : α} (h : x = .ok a) : orStop x s = .ok a s :=
  Step.ofExcept_eq_ok_iff.2 ⟨h, rfl⟩

/-- A miner takes four turns. -/
theorem takesTurns (S : Suite) : (program S).TakesTurns (turn S) 3 where
  transport_withTransport _ _ := rfl
  run_eq s := ⟨4, Nat.lt_of_le_of_lt (Nat.min_le_left _ _) (by decide), rfl⟩

/-- The stage of a miner that has sent message 1. -/
def agreeing (S : Suite) (config : MinerConfig) (initiator : Initiator) : (program S).Stage where
  holds s := s.config = config ∧ s.phase = .handshake initiator
  withTransport _ _ h := h

/-- The stages of a miner that has a session. -/
def inSession (S : Suite) (config : MinerConfig) (phase : Session → Phase) (out inward : Direction)
    (frames : List Frame) : (program S).Stage where
  holds s := s.config = config ∧ ∃ session, s.phase = phase session ∧ session.Standing S out inward frames
  withTransport _ _ h := h

/-- The first turn sends message 1. -/
theorem turn_connected {initiator waiting : Initiator} {first : Bytes} {rest : Entropy}
    (hphase : s.phase = .connected initiator)
    (wrote : initiator.writeFirstMessage S [] s.entropy = (.ok first, waiting, rest))
    (hfirst : first.length ≤ maxNoiseMessage) (live : s.transport.Live unread sent) :
    ∃ s', turn S s = .ok true s' ∧ (agreeing S s.config waiting).holds s' ∧
      s'.transport.Live unread (sent ++ Transport.framed first) := by
  obtain ⟨t, hsend, live'⟩ := Transport.sendHandshake_live hfirst live
  refine ⟨{ s with entropy := rest, phase := .handshake waiting, transport := t }, ?_, ⟨rfl, rfl⟩, live'⟩
  have hfirst : sendFirst S initiator s
      = .ok () { s with entropy := rest, phase := .handshake waiting, transport := t } := by
    unfold sendFirst
    rw [Step.get_bind, wrote]
    show (orStop (.ok first) >>= fun m => onTransport (Transport.sendHandshake m))
      { s with entropy := rest, phase := .handshake waiting } = _
    exact (Step.bind_of_ok (orStop_of_ok rfl)).trans (Step.onPart_of_ok hsend)
  unfold turn
  rw [Step.get_bind, hphase]
  exact Step.bind_of_ok hfirst

/-- A request is sent as a frame. -/
theorem request_live {message : MinerConfig → Except Fault Message} {m : Message}
    (hmessage : message s.config = .ok m) (hframe : m.toFrame = .ok f)
    (h : session.Standing S out inward frames) (hroom : f.pieces.length ≤ out.room)
    (live : s.transport.Live unread sent) :
    ∃ s', request S phase session message s = .ok () s' ∧
      (inSession S s.config phase (out.afterFrame S 0 f) inward frames).holds s' ∧
        s'.transport.Live unread (sent ++ out.sealedFrame S 0 f) := by
  obtain ⟨c, hsend, live', h'⟩ := Connection.sendFrame_live (c := ⟨s.transport, session⟩) h hroom live
  refine ⟨{ s with transport := c.transport, phase := phase c.session }, ?_, ⟨rfl, _, rfl, h'⟩, live'⟩
  unfold request
  rw [Step.get_bind]
  refine (Step.bind_of_ok (orStop_of_ok hmessage)).trans ?_
  exact (Step.bind_of_ok (orStop_of_ok hframe)).trans (Step.bind_of_ok (onConnection_of_ok hsend))

/-- A part of an answer is not taken. -/
theorem receiveReply_waits (hS : S.Sealing) (h : session.Standing S out inward [g])
    (hroom : g.pieces.length ≤ inward.room) (hpart : part <+: inward.sealedFrame S 0 g)
    (hshort : part.length < (inward.sealedFrame S 0 g).length) (live : s.transport.Live part sent) :
    ∃ s', receiveReply S phase session s = .error (.transport .receiveFailed) s' ∧
      (inSession S s.config phase out inward [g]).holds s' ∧ s'.transport.Live part sent := by
  obtain ⟨c, hreceive, h', live'⟩ := Connection.receiveFrame_part (c := ⟨s.transport, session⟩) hS h hroom hpart
    hshort live
  refine ⟨{ s with transport := c.transport, phase := phase c.session }, ?_, ⟨rfl, _, rfl, h'⟩, live'⟩
  exact Step.bind_of_error (onConnection_of_error hreceive)

/-- An answer is taken, whatever follows it. -/
theorem receiveReply_takes {decoded : Decoded} (hS : S.Sealing) (h : session.Standing S out inward [g])
    (hroom : g.pieces.length ≤ inward.room) (hdecode : g.decodeMessage = .ok decoded)
    (live : s.transport.Live (inward.sealedFrame S 0 g ++ unread) sent) :
    ∃ s' session', receiveReply S phase session s = .ok session' s' ∧ s'.config = s.config ∧
      s'.transport.Live unread sent ∧ ∀ frames, session'.Standing S out (inward.afterFrame S 0 g) frames := by
  obtain ⟨c, hreceive, live', h'⟩ := Connection.receiveFrame_takes (c := ⟨s.transport, session⟩) hS h hroom live
  refine ⟨{ s with transport := c.transport, phase := phase c.session }, c.session, ?_, rfl, live', h'⟩
  refine (Step.bind_of_ok (onConnection_of_ok hreceive)).trans ?_
  exact Step.bind_of_ok (Step.bind_of_ok (orStop_of_ok hdecode))

/-- **The second turn** awaits message 2, and sets up the connection. -/
theorem takes_handshake {initiator established : Initiator} {second : Bytes} {m : Message}
    (hsecond : second.length < 65536) (read : initiator.readSecondMessage S second = (.ok (), established))
    (handed : (established.intoSession config.session).1 = .ok session)
    (h : session.Standing S out inward frames) (hmessage : setupRequest config = .ok m)
    (hframe : m.toFrame = .ok f) (hroom : f.pieces.length ≤ out.room) :
    Takes (program S) (turn S) (agreeing S config initiator) ⟨Transport.framed second, out.sealedFrame S 0 f⟩
      (inSession S config .settingUp (out.afterFrame S 0 f) inward frames) := by
  have hturn {s : Client} (hphase : s.phase = .handshake initiator) :
      turn S s = (shakeHands S initiator >>= fun _ => pure true) s := by
    unfold turn
    rw [Step.get_bind, hphase]
  refine ⟨?_, ?_, ?_⟩
  · rw [← List.length_pos_iff, Transport.length_framed]
    exact Nat.lt_of_lt_of_le Nat.two_pos (Nat.le_add_right 2 _)
  · rintro part hpart hshort s sent ⟨rfl, hphase⟩ live
    obtain ⟨t, hreceive, live'⟩ := Transport.receiveHandshake_lacks hsecond hpart hshort live
    refine ⟨{ s with transport := t }, ?_, ⟨rfl, hphase⟩, live'⟩
    rw [hturn hphase]
    exact Step.bind_of_error (Step.bind_of_error (Step.onPart_of_error hreceive))
  · rintro s more sent ⟨rfl, hphase⟩ live
    obtain ⟨t, hreceive, live'⟩ := Transport.receiveHandshake_takes hsecond live
    obtain ⟨s', hrequest, h', live''⟩ := request_live (s := { s with transport := t }) hmessage hframe h hroom live'
    have hshake : shakeHands S initiator s = .ok () s' := by
      unfold shakeHands
      refine (Step.bind_of_ok (Step.onPart_of_ok hreceive)).trans ?_
      rw [read]
      refine (Step.bind_of_ok (orStop_of_ok rfl)).trans ?_
      rw [Step.get_bind]
      exact (Step.bind_of_ok (orStop_of_ok handed)).trans hrequest
    refine ⟨s', ?_, h', live''⟩
    rw [hturn hphase]
    exact Step.bind_of_ok hshake

/-- **The third turn** awaits the answer to the set-up, and asks for a channel. -/
theorem takes_reply {decoded : Decoded} {m : Message} (hS : S.Sealing) (hanswer : g.pieces.length ≤ inward.room)
    (hdecode : g.decodeMessage = .ok decoded) (hmessage : channelRequest config = .ok m)
    (hframe : m.toFrame = .ok f) (hroom : f.pieces.length ≤ out.room) (frames : List Frame) :
    Takes (program S) (turn S) (inSession S config .settingUp out inward [g])
      ⟨inward.sealedFrame S 0 g, out.sealedFrame S 0 f⟩
      (inSession S config .opening (out.afterFrame S 0 f) (inward.afterFrame S 0 g) frames) := by
  have hturn {s : Client} {session : Session} (hphase : s.phase = .settingUp session) :
      turn S s = (receiveReply S .settingUp session >>= fun session =>
        request S .opening session channelRequest >>= fun _ => pure true) s := by
    unfold turn
    rw [Step.get_bind, hphase]
  refine ⟨Direction.sealedFrame_ne_nil hS inward g, ?_, ?_⟩
  · rintro part hpart hshort s sent ⟨rfl, session, hphase, h⟩ live
    obtain ⟨s', hreceive, h', live'⟩ := receiveReply_waits hS h hanswer hpart hshort live
    refine ⟨s', ?_, h', live'⟩
    rw [hturn hphase]
    exact Step.bind_of_error hreceive
  · rintro s more sent ⟨rfl, session, hphase, h⟩ live
    obtain ⟨s₁, session₁, hreceive, hconfig, live₁, h₁⟩ := receiveReply_takes hS h hanswer hdecode live
    rw [← hconfig] at hmessage ⊢
    obtain ⟨s', hrequest, h', live'⟩ := request_live hmessage hframe (h₁ frames) hroom live₁
    refine ⟨s', ?_, h', live'⟩
    rw [hturn hphase]
    exact (Step.bind_of_ok hreceive).trans (Step.bind_of_ok hrequest)

/-- **The last turn** awaits the answer to the request, and ends the miner. -/
theorem finishes {decoded : Decoded} (hS : S.Sealing) (hanswer : g.pieces.length ≤ inward.room)
    (hdecode : g.decodeMessage = .ok decoded) :
    Finishes (program S) (turn S) (inSession S config .opening out inward [g]) (inward.sealedFrame S 0 g) := by
  have hturn {s : Client} {session : Session} (hphase : s.phase = .opening session) :
      turn S s = (discard (receiveReply S .opening session) >>= fun _ =>
        (modify fun s => { s with transport := s.transport.close }) >>= fun _ => pure false) s := by
    unfold turn
    rw [Step.get_bind, hphase]
  refine ⟨?_, ?_⟩
  · rintro part hpart hshort s sent ⟨rfl, session, hphase, h⟩ live
    obtain ⟨s', hreceive, h', live'⟩ := receiveReply_waits hS h hanswer hpart hshort live
    refine ⟨s', ?_, h', live'⟩
    rw [hturn hphase]
    exact Step.bind_of_error (Step.bind_of_error hreceive)
  · rintro s more sent ⟨rfl, session, hphase, h⟩ live
    obtain ⟨s₁, session₁, hreceive, -, live₁, -⟩ := receiveReply_takes hS h hanswer hdecode live
    have hdiscard : discard (receiveReply S .opening session) s = .ok () s₁ := Step.bind_of_ok hreceive
    refine ⟨{ s₁ with transport := s₁.transport.close }, ?_, live₁.outgoing⟩
    rw [hturn hphase]
    exact (Step.bind_of_ok hdiscard).trans rfl

end Miner.Client

/-! ### A pool -/

namespace Pool.Server

variable {S : Suite} {s : Server} {accepted accepted' : Bool} {session : Session} {entropy rest : Entropy}
  {out inward : Direction} {frames : List Frame} {f g : Frame} {part unread sent : Bytes}

/-- A pool takes as many turns as there are bytes. -/
theorem takesTurns (S : Suite) (n : Nat) : (program S).TakesTurns (turn S) n where
  transport_withTransport _ _ := rfl
  run_eq s := ⟨s.transport.unread + 1, Nat.lt_succ_of_le (Nat.min_le_right _ _), rfl⟩

/-- The stage of a pool that awaits message 1. -/
def agreeing (S : Suite) (responder : Responder) (entropy : Entropy) : (program S).Stage where
  holds s := s.config = {} ∧ s.phase = .handshake responder ∧ s.entropy = entropy
  withTransport _ _ h := h

/-- The stages of a pool that answers frames. -/
def inSession (S : Suite) (accepted : Bool) (entropy : Entropy) (out inward : Direction) (frames : List Frame) :
    (program S).Stage where
  holds s := s.entropy = entropy ∧ ∃ session, s.phase = .serving session accepted ∧
    session.Standing S out inward frames
  withTransport _ _ h := h

/-- A frame that is not received makes a turn fail. -/
theorem turn_of_receiveFrame_error {e : Fault} {c : Connection} (hphase : s.phase = .serving session accepted)
    (h : Connection.receiveFrame S ⟨s.transport, session⟩ = .error e c) :
    turn S s = .error e { s with transport := c.transport, phase := .serving c.session accepted } := by
  have hreceive : onConnection session accepted (Connection.receiveFrame S) s
      = .error e { s with transport := c.transport, phase := .serving c.session accepted } := by
    rw [onConnection, h]
  unfold turn
  rw [Step.get_bind, hphase]
  exact Step.bind_of_error (Step.bind_of_error hreceive)

/-- **The first turn** awaits message 1, and answers it. -/
theorem takes_handshake {responder established : Responder} {first second : Bytes}
    (hfirst : first.length < 65536) (answered : responder.respond S first entropy = (.ok second, established, rest))
    (hsecond : second.length ≤ maxNoiseMessage) (handed : (established.intoSession {}).1 = .ok session)
    (h : session.Standing S out inward frames) :
    Takes (program S) (turn S) (agreeing S responder entropy) ⟨Transport.framed first, Transport.framed second⟩
      (inSession S false rest out inward frames) := by
  obtain ⟨-, phase, hanswer, rfl⟩ := Responder.respond_eq_ok_iff.1 answered
  have hturn {s : Server} (hphase : s.phase = .handshake responder) :
      turn S s = (shakeHands S responder >>= fun _ => pure true) s := by
    unfold turn
    rw [Step.get_bind, hphase]
  refine ⟨?_, ?_, ?_⟩
  · rw [← List.length_pos_iff, Transport.length_framed]
    exact Nat.lt_of_lt_of_le Nat.two_pos (Nat.le_add_right 2 _)
  · rintro part hpart hshort s sent ⟨hconfig, hphase, hentropy⟩ live
    obtain ⟨t, hreceive, live'⟩ := Transport.receiveHandshake_lacks hfirst hpart hshort live
    refine ⟨{ s with transport := t }, ?_, ⟨hconfig, hphase, hentropy⟩, live'⟩
    rw [hturn hphase]
    exact Step.bind_of_error (Step.bind_of_error (Step.onPart_of_error hreceive))
  · rintro s more sent ⟨hconfig, hphase, rfl⟩ live
    obtain ⟨t, hreceive, live₁⟩ := Transport.receiveHandshake_takes hfirst live
    obtain ⟨t', hsend, live₂⟩ := Transport.sendHandshake_live hsecond live₁
    have hdraw : drawing (Responder.answer S responder.staticKeys responder.certificate first) { s with transport := t }
        = .ok (second, phase) { s with transport := t, entropy := rest } := Step.onPart_of_ok hanswer
    have hshake : shakeHands S responder s
        = .ok () { s with transport := t', phase := .serving session false, entropy := rest } := by
      unfold shakeHands
      refine (Step.bind_of_ok (Step.onPart_of_ok hreceive)).trans ?_
      refine (Step.bind_of_ok hdraw).trans ?_
      refine (Step.bind_of_ok (Step.onPart_of_ok hsend)).trans ?_
      rw [Step.get_bind]
      dsimp only
      rw [hconfig, handed]
      rfl
    refine ⟨{ s with transport := t', phase := .serving session false, entropy := rest }, ?_,
      ⟨rfl, session, rfl, h⟩, live₂⟩
    rw [hturn hphase]
    exact Step.bind_of_ok hshake

/-- **Every other turn** awaits a frame, and answers it. -/
theorem takes_frame (hS : S.Sealing) (hroom : f.pieces.length ≤ inward.room)
    (hanswer : answerFrame accepted f entropy = .ok (some g, accepted') rest) (hreply : g.pieces.length ≤ out.room)
    (frames : List Frame) :
    Takes (program S) (turn S) (inSession S accepted entropy out inward [f])
      ⟨inward.sealedFrame S 0 f, out.sealedFrame S 0 g⟩
      (inSession S accepted' rest (out.afterFrame S 0 g) (inward.afterFrame S 0 f) frames) := by
  refine ⟨Direction.sealedFrame_ne_nil hS inward f, ?_, ?_⟩
  · rintro part hpart hshort s sent ⟨hentropy, session, hphase, h⟩ live
    obtain ⟨c, hreceive, h', live'⟩ := Connection.receiveFrame_part (c := ⟨s.transport, session⟩) hS h hroom hpart
      hshort live
    exact ⟨_, turn_of_receiveFrame_error hphase hreceive, ⟨hentropy, _, rfl, h'⟩, live'⟩
  · rintro s more sent ⟨rfl, session, hphase, h⟩ live
    obtain ⟨c, hreceive, live₁, h₁⟩ := Connection.receiveFrame_takes (c := ⟨s.transport, session⟩) hS h hroom live
    obtain ⟨c', hsend, live₂, h₂⟩ := Connection.sendFrame_live (h₁ frames) hreply live₁
    have hserve := serve_eq_ok_iff.2 ⟨f, c, some g, accepted', rest, c', hreceive, hanswer, hsend, rfl⟩
    refine ⟨{ s with transport := c'.transport, phase := .serving c'.session accepted', entropy := rest }, ?_,
      ⟨rfl, _, rfl, h₂⟩, live₂⟩
    unfold turn
    rw [Step.get_bind, hphase]
    exact Step.bind_of_ok hserve

/-- A pool that nothing is sent to any more waits, until the stream ends. -/
theorem idles (hS : S.Sealing) : Idles (program S) (turn S) (inSession S accepted entropy out inward []) := by
  refine ⟨?_, ?_⟩
  · rintro s sent ⟨hentropy, session, hphase, h⟩ live
    obtain ⟨c, hreceive, h', bytes, kept⟩ := Connection.receiveFrame_nothing (c := ⟨s.transport, session⟩) hS h
      live.isOpen live.bytes
    have hended : s.transport.inputEnded = false := live.inputEnded
    dsimp only at hreceive
    rw [hended] at hreceive
    exact ⟨_, turn_of_receiveFrame_error hphase hreceive, ⟨hentropy, _, rfl, h'⟩, live.of_kept kept bytes⟩
  · rintro s ⟨hentropy, session, hphase, h⟩ hopen hended hnone
    obtain ⟨c, hreceive, -, -, kept⟩ := Connection.receiveFrame_nothing (c := ⟨s.transport, session⟩) hS h hopen hnone
    replace hended : s.transport.inputEnded = true := hended
    dsimp only at hreceive
    rw [hended] at hreceive
    exact ⟨_, turn_of_receiveFrame_error hphase hreceive, kept⟩

end Pool.Server

end Stratum
