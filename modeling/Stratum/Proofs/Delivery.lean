import Mathlib.Logic.Function.Basic
import Stratum.Proofs.HandshakeRuns
import Stratum.Proofs.Streaming

/-!
# Delivery of frames

Two sides of a completed handshake send frames to each other. What one sends is on its
way until it reaches the other, in pieces of any size and at any time, and the sides send
and receive as they please. This module shows that each receives the frames that the other
has sent, in order and unchanged, whatever the schedule.

* `Network.Lane` is the invariant of one way from side to side. It ties the bytes that have
  arrived and those on their way to the frames that are sent, encrypted, and the sender's
  direction to the receiver's.
* `Network.Sound.step`: everything that can happen keeps both ways sound.
* **`frames_delivered_in_order`**: after any schedule the network is `Network.Faithful`.

A side that receives may find that the next frame has not arrived as a whole. Then it waits.
A stream does not block here: to wait is an attempt that ends in `TransportFault.receiveFailed`,
which a program takes as a reason to try again, and that loses no byte and leaves the session
where it was. The one other failure is the end of the stream.
-/

namespace Stratum

@[simp] theorem Role.other_other (side : Role) : side.other.other = side := by
  cases side <;> rfl

@[simp] theorem Role.other_ne (side : Role) : side.other ≠ side := by
  cases side <;> decide

@[simp] theorem Role.ne_other (side : Role) : side ≠ side.other := side.other_ne.symm

theorem Role.eq_or_eq_other (a b : Role) : a = b ∨ a = b.other := by
  cases a <;> cases b <;> decide

/-- Two connected sides, with what they have sent and received so far. -/
structure Network where
  /-- The connection of each side. -/
  ends : Role → Connection
  /-- The frames that each side has sent. -/
  sent : Role → List Frame := fun _ => []
  /-- The frames that each side has received. -/
  received : Role → List Frame := fun _ => []
  /-- The bytes that have reached each side, from the start on. -/
  delivered : Role → Bytes := fun _ => []

/-- What can happen between two sides. -/
inductive Event where
  /-- A side sends a frame. -/
  | send (side : Role) (f : Frame)
  /-- Of the bytes on their way to a side, the next `n` reach it in one piece. -/
  | deliver (side : Role) (n : Nat)
  /-- A side receives a frame, or finds that it has to wait. -/
  | receive (side : Role)
  /-- A side learns that nothing arrives any more. -/
  | endInput (side : Role)

namespace Network

/-- The network with another connection at one end. -/
def put (net : Network) (side : Role) (c : Connection) : Network :=
  { net with ends := Function.update net.ends side c }

/-- A side sends a frame. One that cannot be sent is not counted. -/
def send (S : Suite) (net : Network) (side : Role) (f : Frame) : Network :=
  match Connection.sendFrame S f (net.ends side) with
  | .ok () c => { net.put side c with sent := Function.update net.sent side (net.sent side ++ [f]) }
  | .error _ c => net.put side c

/-- Bytes that the other side has sent reach a side, in one piece if there are any. -/
def deliver (net : Network) (side : Role) (n : Nat) : Network :=
  let c := net.ends side
  let peer := net.ends side.other
  let piece := peer.transport.outgoing.take n
  if piece = [] then net
  else
    { (net.put side { c with transport.incoming := c.transport.incoming ++ [piece] }).put side.other
        { peer with transport.outgoing := peer.transport.outgoing.drop n } with
      delivered := Function.update net.delivered side (net.delivered side ++ piece) }

/-- A side receives a frame, or waits. -/
def receive (S : Suite) (net : Network) (side : Role) : Network :=
  match Connection.receiveFrame S (net.ends side) with
  | .ok f c =>
    { net.put side c with received := Function.update net.received side (net.received side ++ [f]) }
  | .error _ c => net.put side c

/-- A side learns that nothing arrives any more. -/
def endInput (net : Network) (side : Role) : Network :=
  net.put side { net.ends side with transport.inputEnded := true }

/-- The network after something has happened. -/
def step (S : Suite) (net : Network) : Event → Network
  | .send side f => net.send S side f
  | .deliver side n => net.deliver side n
  | .receive side => net.receive S side
  | .endInput side => net.endInput side

/-- The network after one thing after another has happened. -/
def run (S : Suite) (net : Network) (events : List Event) : Network := events.foldl (step S) net

/-! ### What holds at any time -/

/-- The way from a side `a`, which began with the session `s`, to a side `b`: `frames` are sent and not
received, and they are sealed from the direction `d` on. -/
structure Lane (S : Suite) (s : Session) (net : Network) (a b : Role) (d : Direction) (frames : List Frame) :
    Prop where
  /-- Nothing is lost, doubled or out of order. -/
  sent : net.sent a = net.received b ++ frames
  /-- The bytes that have arrived and those on their way are the frames, sealed. -/
  stream : (net.ends b).transport.unreadBytes ++ (net.ends a).transport.outgoing
    = d.sealedFrames S (net.ends b).session.config.rekeyInterval frames
  /-- The receiver is in the first of the frames. -/
  awaits : (net.ends b).session.Awaits S d frames
  /-- The sender is behind the last. -/
  sending : (net.ends a).session.sending = d.afterFrames S (net.ends b).session.config.rekeyInterval frames
  /-- The nonces have sufficed. -/
  room : Frame.totalPieces frames ≤ d.room
  /-- The receiver takes payloads of such lengths. -/
  fits : ∀ f ∈ frames, f.payload.length ≤ (net.ends b).session.config.maxPayload.toNat
  /-- Keys are changed as often as at the beginning. -/
  interval : (net.ends b).session.config.rekeyInterval = s.config.rekeyInterval
  /-- The frames received are behind the sender's first direction. -/
  place : d = s.sending.afterFrames S s.config.rekeyInterval (net.received b)
  /-- What has reached the receiver is the frames received, sealed, and what is not yet read. -/
  delivered : net.delivered b = s.sealedFrames S (net.received b) ++ (net.ends b).transport.unreadBytes

/-- Both ways are as they should be in a network that began as another. -/
structure Sound (S : Suite) (start net : Network) : Prop where
  /-- Both ways keep their invariant. -/
  lane : ∀ side : Role, ∃ d frames, Lane S (start.ends side).session net side side.other d frames
  /-- Both sides change keys after as many pieces. -/
  interval : ∀ side, (net.ends side.other).session.config.rekeyInterval
    = (net.ends side).session.config.rekeyInterval
  /-- No session has failed. -/
  poisoned : ∀ side, (net.ends side).session.poisoned = false
  /-- Both ends are open. -/
  isOpen : ∀ side, (net.ends side).transport.isOpen = true
  /-- Both ends take what the other sends. -/
  outputBroken : ∀ side, (net.ends side).transport.outputBroken = false

/-- What the sides can rely on in a network that began as another. -/
structure Faithful (S : Suite) (start net : Network) : Prop where
  /-- What a side has received is what the other has sent, from the start up to some frame. -/
  in_order : ∀ side, net.received side <+: net.sent side.other
  /-- The bytes that have reached a side and those on their way to it are the frames that the other has sent,
  encrypted one after another. -/
  carried : ∀ side, net.delivered side ++ (net.ends side.other).transport.outgoing
    = (start.ends side.other).session.sealedFrames S (net.sent side.other)
  /-- Of the bytes that have reached a side, those behind the frames that it has received are still to be
  read. -/
  kept : ∀ side, net.delivered side
    = (start.ends side.other).session.sealedFrames S (net.received side) ++ (net.ends side).transport.unreadBytes
  /-- No session has failed. -/
  sound : ∀ side, (net.ends side).session.poisoned = false
  /-- A frame within the cap can be sent as long as the nonces last. -/
  sends : ∀ side f, f.payload.length ≤ (net.ends side).session.config.maxPayload.toNat →
    pieceCount f.payload.length + 1 ≤ (reservedNonce - (net.ends side).session.sending.cipher.nonce).toNat →
      ∃ c, Connection.sendFrame S f (net.ends side) = .ok () c
  /-- A frame that is received is the next one that was sent. -/
  receives : ∀ side f c, Connection.receiveFrame S (net.ends side) = .ok f c →
    net.received side ++ [f] <+: net.sent side.other
  /-- The next frame is received if all of its bytes have been delivered. -/
  prompt : ∀ side f frames, net.sent side.other = net.received side ++ f :: frames →
    (start.ends side.other).session.sealedFrames S (net.received side ++ [f]) <+: net.delivered side →
      ∃ c, Connection.receiveFrame S (net.ends side) = .ok f c
  /-- And once all bytes have been delivered, all frames are received, one after another. -/
  drains : ∀ side frames, net.sent side.other = net.received side ++ frames →
    (net.ends side.other).transport.outgoing = [] →
      (net.run S (List.replicate frames.length (.receive side))).received side = net.sent side.other
  /-- A side that receives no frame waits and may try again, or it fails because the stream has ended. -/
  waits : ∀ side e c, Connection.receiveFrame S (net.ends side) = .error e c →
    e = .transport (if (net.ends side).transport.inputEnded then .peerClosed else .receiveFailed)

/-! ### Steps -/

variable {S : Suite} {s s' : Session} {start net net' : Network} {a b side : Role} {d : Direction}
  {frames : List Frame}

@[simp] theorem put_ends_self (net : Network) (side : Role) (c : Connection) :
    (net.put side c).ends side = c := Function.update_self ..

@[simp] theorem put_ends_other (net : Network) (side : Role) (c : Connection) :
    (net.put side c).ends side.other = net.ends side.other :=
  Function.update_of_ne side.other_ne ..

@[simp] theorem put_other_ends (net : Network) (side : Role) (c : Connection) :
    (net.put side.other c).ends side = net.ends side :=
  Function.update_of_ne side.ne_other ..

@[simp] theorem put_sent (net : Network) (side : Role) (c : Connection) : (net.put side c).sent = net.sent := rfl

@[simp] theorem put_received (net : Network) (side : Role) (c : Connection) :
    (net.put side c).received = net.received := rfl

@[simp] theorem put_delivered (net : Network) (side : Role) (c : Connection) :
    (net.put side c).delivered = net.delivered := rfl

theorem put_ends (net : Network) (side : Role) : net.put side (net.ends side) = net := by
  rw [put, Function.update_eq_self]

/-- A frame that is sent is written down. -/
theorem sent_send {f : Frame} {c : Connection} (h : Connection.sendFrame S f (net.ends side) = .ok () c) :
    (net.send S side f).sent side = net.sent side ++ [f] := by
  unfold send
  rw [h]
  exact Function.update_self ..

@[simp] theorem delivered_send (S : Suite) (net : Network) (side : Role) (f : Frame) :
    (net.send S side f).delivered = net.delivered := by
  unfold send
  split <;> rfl

@[simp] theorem received_send (S : Suite) (net : Network) (side : Role) (f : Frame) :
    (net.send S side f).received = net.received := by
  unfold send
  split <;> rfl

@[simp] theorem sent_deliver (net : Network) (side : Role) (n : Nat) : (net.deliver side n).sent = net.sent := by
  unfold deliver
  dsimp only
  split <;> rfl

@[simp] theorem received_deliver (net : Network) (side : Role) (n : Nat) :
    (net.deliver side n).received = net.received := by
  unfold deliver
  dsimp only
  split <;> rfl

/-- Bytes that are delivered are no longer on their way. -/
theorem outgoing_deliver (net : Network) (side : Role) (n : Nat) :
    ((net.deliver side n).ends side.other).transport.outgoing = (net.ends side.other).transport.outgoing.drop n := by
  unfold deliver
  dsimp only
  by_cases hnone : (net.ends side.other).transport.outgoing.take n = []
  · rw [if_pos hnone]
    rcases List.take_eq_nil_iff.1 hnone with rfl | hempty
    · rfl
    · rw [hempty, List.drop_nil]
  · rw [if_neg hnone]
    exact congrArg (·.transport.outgoing) (put_ends_self _ side.other _)

/-- Nothing is on its way any more after two deliveries that are long enough. -/
theorem outgoing_deliver_deliver {m n : Nat} (h : (net.ends side.other).transport.outgoing.length ≤ m + n) :
    (((net.deliver side m).deliver side n).ends side.other).transport.outgoing = [] := by
  rw [outgoing_deliver, outgoing_deliver, List.drop_drop]
  exact List.drop_eq_nil_of_le h

@[simp] theorem sent_receive (S : Suite) (net : Network) (side : Role) : (net.receive S side).sent = net.sent := by
  unfold receive
  split <;> rfl

@[simp] theorem delivered_receive (S : Suite) (net : Network) (side : Role) :
    (net.receive S side).delivered = net.delivered := by
  unfold receive
  split <;> rfl

@[simp] theorem ends_receive_other (S : Suite) (net : Network) (side : Role) :
    (net.receive S side).ends side.other = net.ends side.other := by
  unfold receive
  split <;> exact put_ends_other net side _

/-- A frame that is received is written down. -/
theorem received_receive {f : Frame} {c : Connection} (h : Connection.receiveFrame S (net.ends side) = .ok f c) :
    (net.receive S side).received side = net.received side ++ [f] := by
  unfold receive
  rw [h]
  exact Function.update_self ..

/-- The ways there are: there and back. -/
theorem lanes_of (side : Role) (hto : ∃ d frames, Lane S (start.ends side).session net side side.other d frames)
    (hback : ∃ d frames, Lane S (start.ends side.other).session net side.other side d frames) (a : Role) :
    ∃ d frames, Lane S (start.ends a).session net a a.other d frames := by
  rcases a.eq_or_eq_other side with rfl | rfl
  · exact hto
  · rw [Role.other_other]
    exact hback

theorem Sound.lane_back (h : Sound S start net) (side : Role) :
    ∃ d frames, Lane S (start.ends side.other).session net side.other side d frames := by
  have hback := h.lane side.other
  rwa [Role.other_other] at hback

/-- A way is as it was if its bytes are and the receiver awaits the same frames. -/
theorem Lane.of_awaits (h : Lane S s net a b d frames) (hsent : net'.sent a = net.sent a)
    (hreceived : net'.received b = net.received b) (hdelivered : net'.delivered b = net.delivered b)
    (hbytes : (net'.ends b).transport.unreadBytes = (net.ends b).transport.unreadBytes)
    (houtgoing : (net'.ends a).transport.outgoing = (net.ends a).transport.outgoing)
    (hawaits : (net'.ends b).session.Awaits S d frames)
    (hconfig : (net'.ends b).session.config = (net.ends b).session.config)
    (hsending : (net'.ends a).session.sending = (net.ends a).session.sending) :
    Lane S s net' a b d frames where
  sent := by rw [hsent, hreceived, h.sent]
  stream := by rw [hbytes, houtgoing, hconfig, h.stream]
  awaits := hawaits
  sending := by rw [hsending, hconfig, h.sending]
  room := h.room
  fits := by rw [hconfig]; exact h.fits
  interval := by rw [hconfig, h.interval]
  place := by rw [hreceived, h.place]
  delivered := by rw [hdelivered, hreceived, hbytes, h.delivered]

/-- A way is as it was if nothing has happened on it. -/
theorem Lane.congr (h : Lane S s net a b d frames) (hsent : net'.sent a = net.sent a)
    (hreceived : net'.received b = net.received b) (hdelivered : net'.delivered b = net.delivered b)
    (hbytes : (net'.ends b).transport.unreadBytes = (net.ends b).transport.unreadBytes)
    (houtgoing : (net'.ends a).transport.outgoing = (net.ends a).transport.outgoing)
    (hreceiving : (net'.ends b).session.receiving = (net.ends b).session.receiving)
    (hpending : (net'.ends b).session.pendingHeader = (net.ends b).session.pendingHeader)
    (hconfig : (net'.ends b).session.config = (net.ends b).session.config)
    (hsending : (net'.ends a).session.sending = (net.ends a).session.sending) :
    Lane S s net' a b d frames :=
  h.of_awaits hsent hreceived hdelivered hbytes houtgoing (h.awaits.congr hpending hreceiving hconfig) hconfig
    hsending

/-- The settings and the soundness of a side are those of another network. -/
structure SameStatus (net net' : Network) (side : Role) : Prop where
  /-- The settings are the same. -/
  config : (net'.ends side).session.config = (net.ends side).session.config
  /-- The session has failed if it had. -/
  poisoned : (net'.ends side).session.poisoned = (net.ends side).session.poisoned
  /-- The end is open if it was. -/
  isOpen : (net'.ends side).transport.isOpen = (net.ends side).transport.isOpen
  /-- The end takes bytes if it did. -/
  outputBroken : (net'.ends side).transport.outputBroken = (net.ends side).transport.outputBroken

theorem SameStatus.refl (net : Network) (side : Role) : SameStatus net net side := ⟨rfl, rfl, rfl, rfl⟩

/-- A step keeps both ways as they should be if it keeps their invariant. -/
theorem Sound.of_lanes (h : Sound S start net) (hstatus : ∀ side, SameStatus net net' side)
    (hlane : ∀ side : Role, ∃ d frames, Lane S (start.ends side).session net' side side.other d frames) :
    Sound S start net' ∧ ∀ side, SameStatus net net' side := by
  refine ⟨⟨hlane, fun side => ?_, fun side => ?_, fun side => ?_, fun side => ?_⟩, hstatus⟩
  · rw [(hstatus side.other).config, (hstatus side).config, h.interval]
  · rw [(hstatus side).poisoned, h.poisoned]
  · rw [(hstatus side).isOpen, h.isOpen]
  · rw [(hstatus side).outputBroken, h.outputBroken]

/-- A side that sends a frame appends it to the way to the other side. -/
theorem Lane.send (h : Lane S s net side side.other d frames) (f : Frame)
    (hinterval : (net.ends side.other).session.config.rekeyInterval
      = (net.ends side).session.config.rekeyInterval)
    (hfits : f.payload.length ≤ (net.ends side.other).session.config.maxPayload.toNat)
    (hroom : f.pieces.length ≤ (net.ends side).session.sending.room)
    (hsent : net'.sent side = net.sent side ++ [f])
    (hreceived : net'.received side.other = net.received side.other)
    (hdelivered : net'.delivered side.other = net.delivered side.other)
    (hother : net'.ends side.other = net.ends side.other)
    (houtgoing : (net'.ends side).transport.outgoing = (net.ends side).transport.outgoing
      ++ (net.ends side).session.sending.sealedFrame S (net.ends side).session.config.rekeyInterval f)
    (hsending : (net'.ends side).session.sending
      = (net.ends side).session.sending.afterFrame S (net.ends side).session.config.rekeyInterval f) :
    Lane S s net' side side.other d (frames ++ [f]) where
  sent := by rw [hsent, hreceived, h.sent, List.append_assoc]
  stream := by
    rw [hother, houtgoing, ← List.append_assoc, h.stream, ← hinterval, Direction.sealedFrames_append,
      Direction.sealedFrames_singleton, h.sending]
  awaits := by
    rw [hother]
    exact h.awaits.append f
  sending := by
    rw [hother, hsending, ← hinterval, Direction.afterFrames_append, h.sending]
    rfl
  room := by
    have hleft := Direction.room_afterFrames S (net.ends side.other).session.config.rekeyInterval h.room
    rw [h.sending] at hroom
    rw [Frame.totalPieces_append]
    omega
  fits := by
    rw [hother]
    intro g hg
    rcases List.mem_append.1 hg with hg | hg
    · exact h.fits g hg
    · rw [List.mem_singleton.1 hg]
      exact hfits
  interval := by rw [hother, h.interval]
  place := by rw [hreceived, h.place]
  delivered := by rw [hdelivered, hreceived, hother, h.delivered]

theorem Sound.send (h : Sound S start net) (side : Role) (f : Frame)
    (hfits : f.payload.length ≤ (net.ends side.other).session.config.maxPayload.toNat) :
    Sound S start (net.send S side f) ∧ ∀ a, SameStatus net (net.send S side f) a := by
  have hsends := Connection.sendFrame_sends S f (h.isOpen side) (h.outputBroken side) (h.poisoned side)
  unfold Network.send
  generalize Connection.sendFrame S f (net.ends side) = r at hsends
  cases hsends with
  | refused excess =>
    dsimp only
    rw [put_ends]
    exact ⟨h, SameStatus.refl net⟩
  | sent cap room =>
    dsimp only
    refine h.of_lanes ?_ (lanes_of side ?_ ?_)
    · intro a
      rcases a.eq_or_eq_other side with rfl | rfl <;> constructor <;> simp
    · obtain ⟨d, frames, hlane⟩ := h.lane side
      exact ⟨d, frames ++ [f], hlane.send f (h.interval side) hfits room (by simp) rfl rfl (by simp) (by simp)
        (by simp)⟩
    · obtain ⟨d, frames, hlane⟩ := h.lane_back side
      exact ⟨d, frames, hlane.congr (by simp) rfl rfl (by simp) (by simp) (by simp)
        (by simp) (by simp) (by simp)⟩

/-- Bytes that are delivered stay on the way. -/
theorem Lane.deliver (h : Lane S s net a b d frames) (n : Nat)
    (hreceiver : net'.ends b = { net.ends b with
      transport.incoming := (net.ends b).transport.incoming ++ [(net.ends a).transport.outgoing.take n] })
    (hsender : net'.ends a = { net.ends a with
      transport.outgoing := (net.ends a).transport.outgoing.drop n })
    (hsent : net'.sent a = net.sent a) (hreceived : net'.received b = net.received b)
    (hdelivered : net'.delivered b
      = net.delivered b ++ (net.ends a).transport.outgoing.take n) :
    Lane S s net' a b d frames := by
  have hbytes : (net'.ends b).transport.unreadBytes
      = (net.ends b).transport.unreadBytes ++ (net.ends a).transport.outgoing.take n := by
    rw [hreceiver]
    exact Transport.unreadBytes_incoming _ _
  exact
    { sent := by rw [hsent, hreceived, h.sent]
      stream := by rw [hbytes, hreceiver, hsender, List.append_assoc, List.take_append_drop, h.stream]
      awaits := by rw [hreceiver]; exact h.awaits
      sending := by rw [hsender, hreceiver]; exact h.sending
      room := h.room
      fits := by rw [hreceiver]; exact h.fits
      interval := by rw [hreceiver]; exact h.interval
      place := by rw [hreceived, h.place]
      delivered := by rw [hdelivered, hreceived, h.delivered, hbytes, List.append_assoc] }

theorem Sound.deliver (h : Sound S start net) (side : Role) (n : Nat) :
    Sound S start (net.deliver side n) ∧ ∀ a, SameStatus net (net.deliver side n) a := by
  unfold Network.deliver
  dsimp only
  by_cases hnone : (net.ends side.other).transport.outgoing.take n = []
  · rw [if_pos hnone]
    exact ⟨h, SameStatus.refl net⟩
  · rw [if_neg hnone]
    refine h.of_lanes ?_ (lanes_of side ?_ ?_)
    · intro a
      rcases a.eq_or_eq_other side with rfl | rfl <;> constructor <;> simp
    · obtain ⟨d, frames, hlane⟩ := h.lane side
      exact ⟨d, frames, hlane.congr rfl rfl (by simp) (by simp) (by simp) (by simp)
        (by simp) (by simp) (by simp)⟩
    · obtain ⟨d, frames, hlane⟩ := h.lane_back side
      exact ⟨d, frames, hlane.deliver n (by simp) (by simp) rfl rfl (by simp)⟩

/-- The next frame on a way passes all checks of its receiver. -/
theorem Lane.head_fits (h : Lane S s net a b d frames) : ∀ f ∈ frames.head?,
    f.payload.length ≤ (net.ends b).session.config.maxPayload.toNat ∧ f.pieces.length ≤ d.room := by
  intro f hf
  obtain ⟨rest, rfl⟩ : ∃ rest, frames = f :: rest := List.head?_eq_some_iff.1 hf
  have hroom := h.room
  rw [Frame.totalPieces] at hroom
  exact ⟨h.fits f List.mem_cons_self, by omega⟩

/-- A side that receives goes along the way from the other side. -/
theorem Lane.receives (hS : S.Sealing) (h : Sound S start net) (hlane : Lane S s net a b d frames) :
    Connection.Receives S d (net.ends b) frames (Connection.receiveFrame S (net.ends b)) :=
  Connection.receiveFrame_receives hS (h.isOpen b) (h.poisoned b) hlane.awaits hlane.stream hlane.head_fits

/-- A frame that is received leaves the way. -/
theorem Lane.receive {f : Frame} (hS : S.Sealing) (h : Lane S s net a b d (f :: frames))
    (complete : Session.frameSize f.header ≤ (net.ends b).transport.unread)
    (hbytes : (net'.ends b).transport.unreadBytes
      = (net.ends b).transport.unreadBytes.drop (Session.frameSize f.header))
    (hreceiving : (net'.ends b).session.receiving
      = d.afterFrame S (net.ends b).session.config.rekeyInterval f)
    (hpending : (net'.ends b).session.pendingHeader = none)
    (hconfig : (net'.ends b).session.config = (net.ends b).session.config)
    (hsender : net'.ends a = net.ends a) (hsent : net'.sent a = net.sent a)
    (hreceived : net'.received b = net.received b ++ [f]) (hdelivered : net'.delivered b = net.delivered b) :
    Lane S s net' a b (d.afterFrame S (net.ends b).session.config.rekeyInterval f) frames := by
  rw [← Transport.length_unreadBytes] at complete
  have hroom := h.room
  rw [Frame.totalPieces] at hroom
  have hleft : (d.afterFrame S (net.ends b).session.config.rekeyInterval f).room + f.pieces.length = d.room :=
    Direction.room_skip (by omega)
  have hsize : (d.sealedFrame S (net.ends b).session.config.rekeyInterval f).length = Session.frameSize f.header :=
    Direction.length_sealedFrame hS d f
  -- The bytes that are read are those of the frame.
  have hframe : (net.ends b).transport.unreadBytes.take (Session.frameSize f.header)
      = d.sealedFrame S (net.ends b).session.config.rekeyInterval f := by
    rw [← List.take_append_of_le_length complete, h.stream]
    exact List.take_left' hsize
  constructor
  · rw [hsent, hreceived, h.sent, List.append_assoc]
    rfl
  · rw [hbytes, hsender, hconfig, ← List.drop_append_of_le_length complete, h.stream]
    exact List.drop_left' hsize
  · exact .header hpending hreceiving
  · rw [hsender, hconfig]
    exact h.sending
  · omega
  · rw [hconfig]
    exact fun g hg => h.fits g (List.mem_cons_of_mem f hg)
  · rw [hconfig, h.interval]
  · rw [hreceived, Direction.afterFrames_append, ← h.place, h.interval]
    rfl
  · rw [hdelivered, hreceived, hbytes, h.delivered, Session.sealedFrames, Session.sealedFrames,
      Direction.sealedFrames_append, ← h.place, Direction.sealedFrames_singleton, List.append_assoc, ← h.interval,
      ← hframe, List.take_append_drop]

theorem Sound.receive (hS : S.Sealing) (h : Sound S start net) (side : Role) :
    Sound S start (net.receive S side) ∧ ∀ a, SameStatus net (net.receive S side) a := by
  obtain ⟨d, frames, hlane⟩ := h.lane_back side
  obtain ⟨d', frames', hlane'⟩ := h.lane side
  have hreceives := hlane.receives hS h
  unfold Network.receive
  generalize Connection.receiveFrame S (net.ends side) = r at hreceives
  cases hreceives with
  | @frame f frames c complete bytes receiving pending kept =>
    obtain ⟨⟨⟨_, _, _, ht⟩, -⟩, ⟨_, _, hs⟩⟩ := kept
    have hconfig : c.session.config = (net.ends side).session.config := by rw [hs]
    dsimp only
    refine h.of_lanes ?_ (lanes_of side ⟨d', frames', ?_⟩ ⟨_, _, hlane.receive hS complete ?_ ?_ ?_ ?_ ?_ ?_ ?_ ?_⟩)
    · intro a
      rcases a.eq_or_eq_other side with rfl | rfl <;> constructor <;> simp [ht, hs]
    · exact hlane'.congr rfl (by simp) rfl (by simp) (by simp [ht]) (by simp) (by simp) (by simp) (by simp [hs])
    all_goals simp [bytes, receiving, pending, hconfig]
  | @wait frames c missing bytes awaits kept =>
    obtain ⟨⟨⟨_, _, _, ht⟩, -⟩, ⟨_, _, hs⟩⟩ := kept
    dsimp only
    refine h.of_lanes ?_ (lanes_of side ⟨d', frames', ?_⟩ ⟨d, frames, ?_⟩)
    · intro a
      rcases a.eq_or_eq_other side with rfl | rfl <;> constructor <;> simp [ht, hs]
    · exact hlane'.congr rfl rfl rfl (by simp) (by simp [ht]) (by simp) (by simp) (by simp) (by simp [hs])
    · exact hlane.of_awaits rfl rfl rfl (by simp [bytes]) (by simp) (by simpa using awaits) (by simp [hs]) (by simp)

theorem Sound.endInput (h : Sound S start net) (side : Role) :
    Sound S start (net.endInput side) ∧ ∀ a, SameStatus net (net.endInput side) a := by
  unfold Network.endInput
  refine h.of_lanes ?_ (lanes_of side ?_ ?_)
  · intro a
    rcases a.eq_or_eq_other side with rfl | rfl <;> constructor <;> simp
  · obtain ⟨d, frames, hlane⟩ := h.lane side
    exact ⟨d, frames, hlane.congr rfl rfl rfl (by simp) (by simp) (by simp) (by simp) (by simp) (by simp)⟩
  · obtain ⟨d, frames, hlane⟩ := h.lane_back side
    exact ⟨d, frames, hlane.congr rfl rfl rfl (by simp) (by simp) (by simp) (by simp)
      (by simp) (by simp)⟩

/-- **Whatever happens keeps both ways as they should be**, if what is sent fits the other side. -/
theorem Sound.step (hS : S.Sealing) (h : Sound S start net) (e : Event)
    (hfits : ∀ side f, e = .send side f →
      f.payload.length ≤ (net.ends side.other).session.config.maxPayload.toNat) :
    Sound S start (net.step S e) ∧ ∀ side, SameStatus net (net.step S e) side := by
  cases e with
  | send side f => exact h.send side f (hfits side f rfl)
  | deliver side n => exact h.deliver side n
  | receive side => exact h.receive hS side
  | endInput side => exact h.endInput side

theorem Sound.run (hS : S.Sealing) (h : Sound S start net) (events : List Event)
    (hfits : ∀ side f, Event.send side f ∈ events →
      f.payload.length ≤ (net.ends side.other).session.config.maxPayload.toNat) :
    Sound S start (net.run S events) := by
  induction events generalizing net with
  | nil => exact h
  | cons e events ih =>
    obtain ⟨hnext, hstatus⟩ := h.step hS e fun side f he => hfits side f (he ▸ List.mem_cons_self)
    refine ih hnext fun side f hf => ?_
    rw [(hstatus side.other).config]
    exact hfits side f (List.mem_cons_of_mem e hf)

/-! ### What follows -/

/-- What is delivered and what is on its way is what has been sent. -/
theorem Sound.carried (h : Sound S start net) (side : Role) :
    net.delivered side ++ (net.ends side.other).transport.outgoing
      = (start.ends side.other).session.sealedFrames S (net.sent side.other) := by
  obtain ⟨d, frames, hlane⟩ := h.lane_back side
  rw [hlane.delivered, List.append_assoc, hlane.stream, hlane.sent, Session.sealedFrames, Session.sealedFrames,
    Direction.sealedFrames_append, ← hlane.place, hlane.interval]

/-- A frame all of whose bytes are delivered is received. -/
theorem Sound.prompt (hS : S.Sealing) (h : Sound S start net) {f : Frame} {rest : List Frame}
    (hsent : net.sent side.other = net.received side ++ f :: rest)
    (hdelivered : (start.ends side.other).session.sealedFrames S (net.received side ++ [f]) <+: net.delivered side) :
    ∃ c, Connection.receiveFrame S (net.ends side) = .ok f c := by
  obtain ⟨d, frames, hlane⟩ := h.lane_back side
  obtain rfl : frames = f :: rest := List.append_cancel_left (hlane.sent.symm.trans hsent)
  have hreceives := hlane.receives hS h
  generalize Connection.receiveFrame S (net.ends side) = r at hreceives
  cases hreceives with
  | frame => exact ⟨_, rfl⟩
  | wait missing =>
    -- All bytes of the frame are there, so that it is not missing any.
    have hshort := missing f rfl
    have hlength := hdelivered.length_le
    rw [hlane.delivered, Session.sealedFrames, Session.sealedFrames, Direction.sealedFrames_append,
      Direction.sealedFrames_singleton, List.length_append, List.length_append, Direction.length_sealedFrame hS,
      Transport.length_unreadBytes] at hlength
    omega

/-- **Nothing is lost**: with no bytes on their way, a side receives all frames that are sent. -/
theorem Sound.drains (hS : S.Sealing) (h : Sound S start net) {frames : List Frame}
    (hsent : net.sent side.other = net.received side ++ frames)
    (hall : (net.ends side.other).transport.outgoing = []) :
    (net.run S (List.replicate frames.length (.receive side))).received side = net.sent side.other := by
  induction frames generalizing net with
  | nil => rw [hsent, List.append_nil]; rfl
  | cons f frames ih =>
    have hdelivered : (start.ends side.other).session.sealedFrames S (net.received side ++ [f])
        <+: net.delivered side := by
      have hcarried := h.carried side
      rw [hall, List.append_nil, hsent, List.append_cons] at hcarried
      rw [hcarried]
      exact Session.sealedFrames_isPrefix S _ _ _
    obtain ⟨c, hframe⟩ := h.prompt hS hsent hdelivered
    obtain ⟨hnext, -⟩ := h.receive hS side
    have hrest := ih hnext (by rw [sent_receive, received_receive hframe, hsent, List.append_assoc]; rfl)
      (by rw [ends_receive_other]; exact hall)
    rw [sent_receive] at hrest
    exact hrest

/-- As long as both ways are as they should be, the sides can rely on them. -/
theorem Sound.faithful (hS : S.Sealing) (h : Sound S start net) : Faithful S start net where
  in_order side := by
    obtain ⟨d, frames, hlane⟩ := h.lane_back side
    rw [hlane.sent]
    exact List.prefix_append _ _
  carried := h.carried
  kept side := by
    obtain ⟨d, frames, hlane⟩ := h.lane_back side
    exact hlane.delivered
  sound := h.poisoned
  sends side f hcap hroom := by
    have hsends := Connection.sendFrame_sends S f (h.isOpen side) (h.outputBroken side) (h.poisoned side)
    generalize Connection.sendFrame S f (net.ends side) = r at hsends
    cases hsends with
    | sent => exact ⟨_, rfl⟩
    | refused excess =>
      rw [← f.length_pieces] at hroom
      exact absurd ⟨hcap, hroom⟩ excess
  receives side f c hr := by
    obtain ⟨d, frames, hlane⟩ := h.lane_back side
    have hreceives := hlane.receives hS h
    rw [hr] at hreceives
    cases hreceives with
    | @frame f frames c' =>
      refine ⟨frames, ?_⟩
      rw [hlane.sent, List.append_assoc]
      rfl
  prompt _ _ _ hsent hdelivered := h.prompt hS hsent hdelivered
  drains _ _ hsent hall := h.drains hS hsent hall
  waits side e c hr := by
    obtain ⟨d, frames, hlane⟩ := h.lane_back side
    have hreceives := hlane.receives hS h
    rw [hr] at hreceives
    cases hreceives with
    | wait => rfl

/-- When no bytes are on their way, all that is sent has been delivered. -/
theorem Faithful.delivered_of_outgoing (h : Faithful S start net)
    (hall : (net.ends side.other).transport.outgoing = []) :
    net.delivered side = (start.ends side.other).session.sealedFrames S (net.sent side.other) := by
  rw [← h.carried side, hall, List.append_nil]

/-! ### The start -/

/-- The two ends of a fresh byte stream, with a session each. -/
def between (si sr : Session) : Network where
  ends
    | .initiator => { transport := {}, session := si }
    | .responder => { transport := {}, session := sr }

/-- A way with nothing on it leads from a sender to a receiver in step with it. -/
theorem Lane.fresh (hstep : Session.InStep (net.ends a).session (net.ends b).session)
    (ha : (net.ends a).transport = {}) (hb : (net.ends b).transport = {}) (hsent : net.sent a = [])
    (hreceived : net.received b = []) (hdelivered : net.delivered b = []) :
    Lane S (net.ends a).session net a b (net.ends a).session.sending [] where
  sent := by rw [hsent, hreceived, List.append_nil]
  stream := by rw [ha, hb]; rfl
  awaits := .header hstep.pending hstep.direction.symm
  sending := rfl
  room := Nat.zero_le _
  fits f hf := absurd hf List.not_mem_nil
  interval := hstep.interval.symm
  place := by rw [hreceived]; rfl
  delivered := by rw [hdelivered, hreceived, hb]; rfl

/-- Both ways are as they should be when both sides are in step with each other. -/
theorem Sound.between {si sr : Session} (hto : Session.InStep si sr) (hback : Session.InStep sr si) :
    Sound S (between si sr) (between si sr) where
  lane := lanes_of .initiator ⟨_, [], .fresh hto rfl rfl rfl rfl rfl⟩ ⟨_, [], .fresh hback rfl rfl rfl rfl rfl⟩
  interval
    | .initiator => hback.interval
    | .responder => hto.interval
  poisoned
    | .initiator => hto.sender
    | .responder => hto.receiver
  isOpen side := by cases side <;> rfl
  outputBroken side := by cases side <;> rfl

end Network

/-! ### From a handshake on -/

section

variable {S : Suite} {i₀ i : Initiator} {r₀ r : Responder} {payload : Bytes} {ea eb : Entropy}
  {ci cr : SessionConfig} {si sr : Session}

/-- Both sides of a handshake have their settings, and are in step with each other. -/
theorem Handshake.Run.inStep (hS : S.Sealing) (run : Handshake.Run S i₀ r₀ payload ea eb)
    (hee : (KeyPair.ofEntropy S ea).Agree S (.ofEntropy S eb))
    (hes : (KeyPair.ofEntropy S ea).Agree S r₀.staticKeys)
    (hi : run.initiator.intoSession ci = (.ok si, i)) (hr : run.responder.intoSession cr = (.ok sr, r))
    (hinterval : ci.rekeyInterval = cr.rekeyInterval) :
    si.config = ci ∧ sr.config = cr ∧ Session.InStep si sr ∧ Session.InStep sr si := by
  obtain ⟨-, -, k₁, k₂, hash, c, -, hinitiator, hresponder⟩ := run.mirror hS hee hes
  obtain ⟨-, rfl, -⟩ := (Initiator.intoSession_eq_ok_iff hinitiator).1 hi
  obtain ⟨-, rfl, -⟩ := (Responder.intoSession_eq_ok_iff hresponder).1 hr
  exact ⟨rfl, rfl, ⟨rfl, hinterval, rfl, rfl, rfl⟩, ⟨rfl, hinterval.symm, rfl, rfl, rfl⟩⟩

/-- **Frames are delivered in order.** Two sides of a completed handshake that change keys after as many
pieces, whatever their caps, send frames that are within both caps. Whatever they send and receive, in
which order, and in which pieces and when the bytes arrive: the network is faithful. -/
theorem frames_delivered_in_order (hS : S.Sealing) (run : Handshake.Run S i₀ r₀ payload ea eb)
    (hee : (KeyPair.ofEntropy S ea).Agree S (.ofEntropy S eb))
    (hes : (KeyPair.ofEntropy S ea).Agree S r₀.staticKeys)
    (hi : run.initiator.intoSession ci = (.ok si, i)) (hr : run.responder.intoSession cr = (.ok sr, r))
    (hinterval : ci.rekeyInterval = cr.rekeyInterval) (events : List Event)
    (hfits : ∀ side f, Event.send side f ∈ events →
      f.payload.length ≤ ci.maxPayload.toNat ∧ f.payload.length ≤ cr.maxPayload.toNat) :
    Network.Faithful S (.between si sr) ((Network.between si sr).run S events) := by
  obtain ⟨rfl, rfl, hto, hback⟩ := run.inStep hS hee hes hi hr hinterval
  refine ((Network.Sound.between hto hback).run hS events fun side f hf => ?_).faithful hS
  obtain ⟨hfi, hfr⟩ := hfits side f hf
  cases side with
  | initiator => exact hfr
  | responder => exact hfi

end

namespace Network.Sample

/-- A frame is sent, reaches the other side in two parts, and is received. -/
def schedule : List Event :=
  [.send .initiator Session.Sample.frame, .deliver .responder 30, .deliver .responder 100, .receive .responder]

/-- A fresh session encrypts the frame, to 41 bytes. -/
theorem exists_encrypt {s : Session} (hconfig : s.config = { rekeyInterval := 3 }) (hsound : s.poisoned = false)
    (hnonce : s.sending.cipher.nonce = 0) :
    ∃ c s', Session.encrypt Suite.standard Session.Sample.frame s = .ok c s' ∧ c.length = 41
      ∧ s.sealedFrames Suite.standard [Session.Sample.frame] = c := by
  have hcap : Session.Sample.frame.payload.length ≤ s.config.maxPayload.toNat := by
    rw [hconfig]
    decide
  have hroom : Session.Sample.frame.pieces.length ≤ s.sending.room := by
    rw [Session.Sample.frame.length_pieces, Direction.room, hnonce]
    decide
  have hencrypt := (Session.encrypt_eq_ok_iff (S := Suite.standard)).2 ⟨hsound, hcap, hroom, rfl, rfl⟩
  have hbytes := Session.sealedFrames_of_encrypt hencrypt []
  refine ⟨_, _, hencrypt, ?_, hbytes.trans (List.append_nil _)⟩
  exact (Direction.length_sealedFrame Suite.standard_exact.toSealing s.sending Session.Sample.frame).trans (by decide)

end Network.Sample

open Handshake.Sample Network.Sample in
/-- The sessions of a handshake on the suite of the protocol change keys after every third piece. The frame that
one of them sends is received, and the bytes that arrive are what it is encrypted to. -/
theorem frames_delivered_in_order_on_sample :
    ∃ (si sr s : Session) (c : Bytes), si.config.rekeyInterval = 3 ∧
      Session.encrypt Suite.standard Session.Sample.frame si = .ok c s ∧
      Network.Faithful Suite.standard (.between si sr) ((Network.between si sr).run Suite.standard schedule) ∧
      ((Network.between si sr).run Suite.standard schedule).delivered .responder = c ∧
      ((Network.between si sr).run Suite.standard schedule).received .responder = [Session.Sample.frame] := by
  obtain ⟨c, hverify⟩ := exists_verify
  have hS := Suite.standard_exact.toSealing
  obtain ⟨run⟩ : Nonempty (Handshake.Run Suite.standard initiator responder [] initiatorEntropy responderEntropy) :=
    Handshake.exists_run hS rfl rfl hverify (by decide) (by decide) (by decide) ephemeral_agree static_agree
  obtain ⟨-, -, k₁, k₂, hash, c, -, hinitiator, hresponder⟩ := run.mirror hS ephemeral_agree static_agree
  obtain ⟨si, i, hi, hconfig, hsound, hnonce⟩ : ∃ si i, run.initiator.intoSession { rekeyInterval := 3 } = (.ok si, i) ∧
      si.config = { rekeyInterval := 3 } ∧ si.poisoned = false ∧ si.sending.cipher.nonce = 0 :=
    ⟨_, _, (Initiator.intoSession_eq_ok_iff hinitiator).2 ⟨rfl, rfl, rfl⟩, rfl, rfl, rfl⟩
  obtain ⟨sr, r, hr⟩ : ∃ sr r, run.responder.intoSession { rekeyInterval := 3, maxPayload := 5 } = (.ok sr, r) :=
    ⟨_, _, (Responder.intoSession_eq_ok_iff hresponder).2 ⟨rfl, rfl, rfl⟩⟩
  have hfaithful (n : Nat) : Network.Faithful Suite.standard (.between si sr)
      ((Network.between si sr).run Suite.standard (schedule.take n)) := by
    refine frames_delivered_in_order hS run ephemeral_agree static_agree hi hr rfl _ ?_
    intro side f hf
    obtain ⟨rfl, rfl⟩ : side = .initiator ∧ f = Session.Sample.frame := by
      simpa [schedule] using List.mem_of_mem_take hf
    decide
  obtain ⟨c, s, hencrypt, hlength, hbytes⟩ := exists_encrypt hconfig hsound hnonce
  have hcap : Session.Sample.frame.payload.length ≤ si.config.maxPayload.toNat := by rw [hconfig]; decide
  have hroom : pieceCount Session.Sample.frame.payload.length + 1
      ≤ (reservedNonce - si.sending.cipher.nonce).toNat := by rw [hnonce]; decide
  -- It is sent.
  obtain ⟨_, hsend⟩ := (hfaithful 0).sends .initiator Session.Sample.frame hcap hroom
  obtain ⟨net, hnet⟩ : ∃ net, (Network.between si sr).send Suite.standard .initiator Session.Sample.frame = net :=
    ⟨_, rfl⟩
  have hsent : net.sent .initiator = [Session.Sample.frame] := hnet ▸ Network.sent_send hsend
  have hreceived : net.received = fun _ => [] := hnet ▸ Network.received_send Suite.standard _ .initiator _
  have hdelivered : net.delivered = fun _ => [] := hnet ▸ Network.delivered_send Suite.standard _ .initiator _
  have hwaiting : (net.ends .initiator).transport.outgoing.length = 41 := by
    have hcarried : net.delivered .responder ++ (net.ends .initiator).transport.outgoing
        = si.sealedFrames Suite.standard (net.sent .initiator) := by
      rw [← hnet]
      exact (hfaithful 1).carried .responder
    rw [hdelivered, hsent, hbytes] at hcarried
    rw [← hlength, ← hcarried]
    rfl
  -- All of its bytes arrive.
  obtain ⟨arrived, harrived⟩ : ∃ arrived, (net.deliver .responder 30).deliver .responder 100 = arrived := ⟨_, rfl⟩
  have h : Network.Faithful Suite.standard (.between si sr) arrived := by
    rw [← harrived, ← hnet]
    exact hfaithful 3
  have hall : (arrived.ends .initiator).transport.outgoing = [] := by
    rw [← harrived]
    exact Network.outgoing_deliver_deliver (Nat.le_trans (Nat.le_of_eq hwaiting) (by decide))
  have hsent' : arrived.sent .initiator = [Session.Sample.frame] := by
    rw [← harrived, Network.sent_deliver, Network.sent_deliver, hsent]
  have hlast : (Network.between si sr).run Suite.standard schedule = arrived.receive Suite.standard .responder := by
    rw [← harrived, ← hnet]
    rfl
  refine ⟨si, sr, _, _, by rw [hconfig], hencrypt, hfaithful 4, ?_, ?_⟩
  · have hbehind : arrived.delivered .responder = si.sealedFrames Suite.standard (arrived.sent .initiator) :=
      h.delivered_of_outgoing hall
    rw [hlast, Network.delivered_receive, hbehind, hsent', hbytes]
  · rw [hlast, ← hsent']
    refine h.drains .responder [Session.Sample.frame] ?_ hall
    rw [← harrived, Network.received_deliver, Network.received_deliver, hreceived, harrived]
    exact hsent'

end Stratum
