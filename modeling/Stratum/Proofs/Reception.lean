import Mathlib.Logic.Function.Basic
import Stratum.Proofs.GrowingReads

/-!
# Receiving does not depend on how a stream is cut

A transport keeps the bytes that have arrived too early, and asks for more when it lacks
some. What its callers get is shown to depend on the bytes alone, hostile ones too, and
not on the pieces that they arrive in.

* `Session.Begins`: what the first bytes of a stream decide about reading a frame from it.
  A frame or a failure is final (`Session.read_of_isPrefix_of_frame`,
  `Session.read_of_isPrefix_of_error`), and bytes that are asked for are lacking
  (`Session.read_of_isPrefix_of_incomplete`).
* `Session.LeavesSending.read`: reading does not touch what is sent.
* `Connection.Tries`: receiving a frame without the bound that it sets itself. It asks for
  more at most twice (`Connection.Tries.asked_le`), and gives what reading all bytes at
  once gives (`Connection.Tries.gives`).
* `Transport.receiveHandshake_gives`: a handshake message is the one that the unread bytes
  start with.
* `Endpoint.Receives`: what either call gives, said by the bytes that are left. So two ends
  that are left with the same bytes go on to give the same (`Endpoint.Agree.run`).
* **`Endpoint.reception_independent_of_cut`**: all of this, for every byte string and every
  list of calls.
-/

namespace Stratum

/-! ### Reading the start of a stream -/

namespace Session

variable {S : Suite} {s s' s'' : Session} {e : Fault} {h : FrameHeader} {f : Frame} {n needed needed' : Nat}
  {p q : Bytes}

/-- What a header declares is read from the bytes of its frame; those behind them do not matter. -/
theorem readBehind_of_isPrefix (hpq : p <+: q) (hlen : frameSize h ≤ p.length) :
    readBehind S h q s = readBehind S h p s := by
  obtain ⟨more, rfl⟩ := hpq
  have hheader := sealedHeaderLength_le_frameSize h
  have hlong : frameSize h ≤ (p ++ more).length := by
    rw [List.length_append]
    omega
  have hpayload : ((p ++ more).drop sealedHeaderLength).take (frameSize h - sealedHeaderLength)
      = (p.drop sealedHeaderLength).take (frameSize h - sealedHeaderLength) := by
    rw [List.drop_append_of_le_length (by omega), List.take_append_of_le_length (by rw [List.length_drop]; omega)]
  rw [readBehind_of_long hlong, readBehind_of_long hlen, hpayload]

theorem readBehind_eq_frame (hread : readBehind S h p s = .ok (.frame f n) s') :
    n = frameSize h ∧ frameSize h ≤ p.length ∧ s'.poisoned = s.poisoned := by
  rcases Nat.lt_or_ge p.length (frameSize h) with hshort | hlong
  · cases (readBehind_of_short hshort).symm.trans hread
  · obtain ⟨_, _, hpayload, hret⟩ := Step.bind_eq_ok_iff.1 ((readBehind_of_long hlong).symm.trans hread)
    cases hret
    exact ⟨rfl, hlong, (openPayload_keeps hpayload).1⟩

theorem readBehind_eq_incomplete (hread : readBehind S h p s = .ok (.incomplete needed) s') :
    p.length < frameSize h ∧ needed = frameSize h - p.length ∧ s' = s := by
  rcases Nat.lt_or_ge p.length (frameSize h) with hshort | hlong
  · cases (readBehind_of_short hshort).symm.trans hread
    exact ⟨hshort, rfl, rfl⟩
  · obtain ⟨_, _, -, hret⟩ := Step.bind_eq_ok_iff.1 ((readBehind_of_long hlong).symm.trans hread)
    cases hret

theorem length_of_readBehind_eq_error (hread : readBehind S h p s = .error e s') : frameSize h ≤ p.length := by
  rcases Nat.lt_or_ge p.length (frameSize h) with hshort | hlong
  · cases (readBehind_of_short hshort).symm.trans hread
  · exact hlong

/-- **What the first bytes of a stream decide** about reading it. -/
inductive Begins (S : Suite) (s : Session) (p : Bytes) : Prop where
  /-- Reading fails, whatever follows. -/
  | failed {e : Fault} {s' : Session} (reads : ∀ q, p <+: q → read S q s = .error e s')
  /-- Nothing: the header is not there. -/
  | headless (sound : s.poisoned = false) (pending : s.pendingHeader = none) (short : p.length < sealedHeaderLength)
  /-- The header is known, and kept until the frame is there. -/
  | headed {h : FrameHeader} {s₁ : Session} (sound : s₁.poisoned = false) (pending : s₁.pendingHeader = some h)
    (reads : ∀ q, p <+: q → read S q s = readBehind S h q s₁)

theorem begins (S : Suite) (s : Session) (p : Bytes) : Begins S s p := by
  cases hpoison : s.poisoned with
  | true => exact .failed fun _ _ => read_of_poisoned hpoison
  | false =>
    cases hpending : s.pendingHeader with
    | some h => exact .headed hpoison hpending fun _ _ => read_of_pending hpoison hpending
    | none =>
      rcases Nat.lt_or_ge p.length sealedHeaderLength with hshort | hlong
      · exact .headless hpoison hpending hshort
      · -- whatever follows, the header is opened from the same bytes
        have htake {q : Bytes} (hpq : p <+: q) : p.take sealedHeaderLength = q.take sealedHeaderLength := by
          obtain ⟨more, rfl⟩ := hpq
          exact (List.take_append_of_le_length hlong).symm
        cases hopen : openHeader S (p.take sealedHeaderLength) s with
        | error e s₁ =>
          have hreads (q : Bytes) (hpq : p <+: q) : read S q s = .error e s₁ := by
            rw [htake hpq] at hopen
            exact read_of_openHeader_error hpoison hpending (Nat.le_trans hlong hpq.length_le) hopen
          exact .failed hreads
        | ok h s₁ =>
          have hsound : ({ s₁ with pendingHeader := some h } : Session).poisoned = false :=
            ((opens_openHeader _).keeps hopen).1.trans hpoison
          have hreads (q : Bytes) (hpq : p <+: q) :
              read S q s = readBehind S h q { s₁ with pendingHeader := some h } := by
            rw [htake hpq] at hopen
            exact read_of_openHeader hpoison hpending (Nat.le_trans hlong hpq.length_le) hopen
          exact .headed hsound rfl hreads

/-- A frame that is read takes its header at least, and no more than there is. -/
theorem length_of_read_eq_frame (hread : read S p s = .ok (.frame f n) s') :
    sealedHeaderLength ≤ n ∧ n ≤ p.length ∧ s'.poisoned = false := by
  cases begins S s p with
  | failed reads =>
    cases (reads p p.prefix_refl).symm.trans hread
  | headless sound pending short =>
    cases (read_of_short sound pending short).symm.trans hread
  | @headed h s₁ sound pending reads =>
    obtain ⟨rfl, hlen, hpoison⟩ := readBehind_eq_frame ((reads p p.prefix_refl).symm.trans hread)
    exact ⟨sealedHeaderLength_le_frameSize h, hlen, hpoison.trans sound⟩

/-- It is read from its own bytes, whatever follows them. -/
theorem read_of_take_isPrefix (hread : read S p s = .ok (.frame f n) s') (hq : p.take n <+: q) :
    read S q s = .ok (.frame f n) s' := by
  obtain ⟨hheader, hlen, -⟩ := length_of_read_eq_frame hread
  have hown : (p.take n).length = n := List.length_take_of_le hlen
  have hp : p.take n <+: p := List.take_prefix n p
  cases begins S s (p.take n) with
  | failed reads =>
    cases (reads p hp).symm.trans hread
  | headless _ _ short =>
    rw [hown] at short
    exact absurd hheader (Nat.not_le.2 short)
  | headed _ _ reads =>
    obtain ⟨hsize, -⟩ := readBehind_eq_frame ((reads p hp).symm.trans hread)
    have hfits := Nat.le_of_eq (hsize.symm.trans hown.symm)
    rw [reads q hq, readBehind_of_isPrefix hq hfits, ← readBehind_of_isPrefix hp hfits, ← reads p hp]
    exact hread

theorem read_of_isPrefix_of_frame (hread : read S p s = .ok (.frame f n) s') (hpq : p <+: q) :
    read S q s = .ok (.frame f n) s' :=
  read_of_take_isPrefix hread ((List.take_prefix n p).trans hpq)

/-- A failure to read is one whatever follows. -/
theorem read_of_isPrefix_of_error (hread : read S p s = .error e s') (hpq : p <+: q) :
    read S q s = .error e s' := by
  cases begins S s p with
  | failed reads =>
    rw [reads q hpq, ← reads p p.prefix_refl]
    exact hread
  | headless sound pending short =>
    cases (read_of_short sound pending short).symm.trans hread
  | headed _ _ reads =>
    have hbehind := reads p p.prefix_refl
    have hlen := length_of_readBehind_eq_error (hbehind.symm.trans hread)
    rw [reads q hpq, readBehind_of_isPrefix hpq hlen, ← hbehind]
    exact hread

/-- **Bytes that are asked for are lacking.** With fewer of them the frame is not complete either, and with more
it makes no difference that reading has been tried before. -/
theorem read_of_isPrefix_of_incomplete (hread : read S p s = .ok (.incomplete needed) s') :
    0 < needed ∧ (∀ q, p <+: q → read S q s = read S q s') ∧ ∀ q, p <+: q → q.length < p.length + needed →
      read S q s = .ok (.incomplete (p.length + needed - q.length)) s' := by
  cases begins S s p with
  | failed reads =>
    cases (reads p p.prefix_refl).symm.trans hread
  | headless sound pending short =>
    cases (read_of_short sound pending short).symm.trans hread
    refine ⟨Nat.sub_pos_of_lt short, fun _ _ => rfl, fun q _ hmore => ?_⟩
    rw [Nat.add_sub_of_le (Nat.le_of_lt short)] at hmore ⊢
    exact read_of_short sound pending hmore
  | headed sound pending reads =>
    obtain ⟨hshort, rfl, rfl⟩ := readBehind_eq_incomplete ((reads p p.prefix_refl).symm.trans hread)
    refine ⟨Nat.sub_pos_of_lt hshort, fun q hpq => ?_, fun q hpq hmore => ?_⟩
    · rw [reads q hpq, read_of_pending sound pending]
    · rw [Nat.add_sub_of_le (Nat.le_of_lt hshort)] at hmore ⊢
      rw [reads q hpq]
      exact readBehind_of_short hmore

/-- More is asked for twice only if what was asked for first was the header. -/
theorem length_of_incomplete_again (hread : read S p s = .ok (.incomplete needed) s')
    (hmore : p.length + needed ≤ q.length) (hagain : read S q s' = .ok (.incomplete needed') s'') :
    p.length < sealedHeaderLength ∧ sealedHeaderLength ≤ q.length := by
  cases begins S s p with
  | failed reads =>
    cases (reads p p.prefix_refl).symm.trans hread
  | headless sound pending short =>
    cases (read_of_short sound pending short).symm.trans hread
    exact ⟨short, by omega⟩
  | headed sound pending reads =>
    obtain ⟨-, rfl, rfl⟩ := readBehind_eq_incomplete ((reads p p.prefix_refl).symm.trans hread)
    obtain ⟨hshort, -⟩ := readBehind_eq_incomplete ((read_of_pending sound pending).symm.trans hagain)
    omega

end Session

/-! ### What receiving leaves alone -/

namespace Session

/-- A step that leaves what is sent, and the settings, as they are. -/
def LeavesSending {α : Type} (m : SessionM α) : Prop :=
  ∀ s, (RecordM.after (m s)).sending = s.sending ∧ (RecordM.after (m s)).config = s.config

namespace LeavesSending

variable {S : Suite} {α β : Type} {m m' : SessionM α}

theorem of_still (h : Still m) : LeavesSending m := fun s => ⟨(h s).1, (h s).2.2⟩

theorem pure (a : α) : LeavesSending (Pure.pure a : SessionM α) := fun _ => ⟨rfl, rfl⟩

theorem throw (e : Fault) : LeavesSending (MonadExcept.throw e : SessionM α) := fun _ => ⟨rfl, rfl⟩

theorem bind {f : α → SessionM β} (hm : LeavesSending m) (hf : ∀ a, LeavesSending (f a)) :
    LeavesSending (m >>= f) := by
  intro s
  have hfirst := hm s
  cases hr : m s with
  | error e s₁ =>
    rw [hr] at hfirst
    rw [Step.bind_of_error hr]
    exact hfirst
  | ok a s₁ =>
    rw [hr] at hfirst
    rw [Step.bind_of_ok hr]
    obtain ⟨hsending, hconfig⟩ := hf a s₁
    exact ⟨hsending.trans hfirst.1, hconfig.trans hfirst.2⟩

theorem ite {c : Prop} [Decidable c] (hm : LeavesSending m) (hm' : LeavesSending m') :
    LeavesSending (if c then m else m') := by
  split
  · exact hm
  · exact hm'

/-- A step that is refused under a condition. -/
theorem guarded {c : Prop} [Decidable c] {x : SessionM Unit} {k : Unit → SessionM α} (hx : LeavesSending x)
    (hk : LeavesSending (k ())) : LeavesSending (if c then x >>= k else k ()) := by
  split
  · exact hx.bind fun _ => hk
  · exact hk

theorem openPiece (sealed : Bytes) : LeavesSending (Session.openPiece S sealed) := by
  intro s
  cases h : Session.openPiece S sealed s with
  | ok piece s' =>
    obtain ⟨-, -, rfl⟩ := openPiece_eq_ok_iff.1 h
    exact ⟨rfl, rfl⟩
  | error e s' =>
    obtain ⟨hsending, -, hconfig⟩ := still_of_openPiece_eq_error h
    exact ⟨hsending, hconfig⟩

theorem openHeader (sealed : Bytes) : LeavesSending (Session.openHeader S sealed) := by
  refine (openPiece sealed).bind fun bs => ?_
  cases FrameHeader.peek? bs with
  | none => exact of_still (still_poison _)
  | some h => exact (of_still still_get).bind fun s => .guarded (of_still (still_poison _)) (.pure h)

theorem openPieces (left : Nat) (sealed : Bytes) : LeavesSending (Session.openPieces S left sealed) := by
  induction left using Nat.strongRecOn generalizing sealed with
  | ind left ih =>
    rw [Session.openPieces]
    by_cases hleft : left = 0
    · rw [dif_pos hleft]
      exact .pure []
    · rw [dif_neg hleft]
      refine .ite (of_still (still_poison _)) ((openPiece _).bind fun piece => ?_)
      exact (ih (left - maxPiece) (Nat.sub_lt (Nat.pos_of_ne_zero hleft) (by decide)) _).bind fun rest => .pure _

theorem openPayload (h : FrameHeader) (sealed : Bytes) : LeavesSending (Session.openPayload S h sealed) := by
  refine (openPieces _ sealed).bind fun payload => ?_
  cases Frame.make h.extensionType h.messageType payload with
  | ok f => exact .pure f
  | error e => exact .throw e

theorem currentHeader (data : Bytes) : LeavesSending (Session.currentHeader S data) := by
  refine (of_still still_get).bind fun s => ?_
  cases s.pendingHeader with
  | some h => exact .pure (some h)
  | none =>
    refine .ite (.pure none) ((openHeader _).bind fun h => ?_)
    exact (of_still (still_setPending (some h))).bind fun _ => .pure (some h)

/-- **Reading leaves what is sent, and the settings, alone**, also when it fails. -/
theorem read (S : Suite) (data : Bytes) : LeavesSending (Session.read S data) := by
  refine (of_still still_checkPoison).bind fun _ => (currentHeader data).bind fun header => ?_
  cases header with
  | none => exact .pure _
  | some h =>
    refine .ite (.pure _) ((of_still (still_setPending none)).bind fun _ => ?_)
    exact (openPayload h _).bind fun f => .pure _

end LeavesSending

end Session

/-! ### Attempts to receive a frame -/

namespace Connection

variable {S : Suite} {c : Connection} {asked fuel : Nat} {r : EStateM.Result Fault Connection Frame}

/-- **An attempt to receive a frame**, with no bound to how often it asks for more bytes, and how often it
does. -/
inductive Tries (S : Suite) : (asked : Nat) → Connection → EStateM.Result Fault Connection Frame → Prop where
  /-- The buffer holds a frame. -/
  | frame {c : Connection} {f : Frame} {n : Nat} {s' : Session}
    (read : Session.read S c.transport.buffer c.session = .ok (.frame f n) s') :
    Tries S 0 c (.ok f ⟨c.transport.advance n, s'⟩)
  /-- What is in the buffer is refused. -/
  | refused {c : Connection} {e : Fault} {s' : Session}
    (read : Session.read S c.transport.buffer c.session = .error e s') :
    Tries S 0 c (.error e { c with session := s' })
  /-- More is asked for, and there is not so much. -/
  | ended {c : Connection} {needed : Nat} {s' : Session} {e : Fault} {t' : Transport}
    (read : Session.read S c.transport.buffer c.session = .ok (.incomplete needed) s')
    (fill : Transport.fill (c.transport.buffered + needed) c.transport = .error e t') :
    Tries S 1 c (.error e ⟨t', s'⟩)
  /-- More is asked for, and with it there is another try. -/
  | again {asked : Nat} {c : Connection} {needed : Nat} {s' : Session} {t' : Transport}
    {r : EStateM.Result Fault Connection Frame}
    (read : Session.read S c.transport.buffer c.session = .ok (.incomplete needed) s')
    (fill : Transport.fill (c.transport.buffered + needed) c.transport = .ok () t')
    (rest : Tries S asked ⟨t', s'⟩ r) : Tries S (asked + 1) c r

theorem receiveFrameWithin_of_error {e : Fault} {s' : Session}
    (h : Session.read S c.transport.buffer c.session = .error e s') :
    receiveFrameWithin S (fuel + 1) c = .error e { c with session := s' } := by
  rw [receiveFrameWithin]
  exact Step.get_bind.trans (Step.bind_of_error (Step.onPart_of_error h))

end Connection

namespace Transport

variable {t t' : Transport} {n : Nat} {e : Fault}

/-- When there are enough bytes, they are in the buffer afterwards. -/
theorem fill_eq_ok (hopen : t.isOpen = true) (h : fill n t = .ok () t') :
    t'.unreadBytes = t.unreadBytes ∧ n ≤ t'.buffered ∧ t.KeepsSending t' := by
  have hfills := fill_fills (n := n) hopen
  rw [h] at hfills
  cases hfills with
  | enough bytes long kept => exact ⟨bytes, long, kept⟩

/-- When there are too few, they stay. -/
theorem fill_eq_error (hopen : t.isOpen = true) (h : fill n t = .error e t') :
    t'.unreadBytes = t.unreadBytes ∧ t.unreadBytes.length < n ∧ t.KeepsSending t' ∧
      e = .transport (if t.inputEnded then .peerClosed else .receiveFailed) := by
  have hfills := fill_fills (n := n) hopen
  rw [h] at hfills
  cases hfills with
  | short bytes short kept =>
    rw [length_unreadBytes]
    exact ⟨bytes, short, kept, rfl⟩

/-- What is in the buffer is the start of what is unread. -/
theorem buffer_isPrefix_unreadBytes (t : Transport) : t.buffer <+: t.unreadBytes := List.prefix_append _ _

/-- The first bytes that are unread, once the buffer holds them. -/
theorem take_buffer (h : n ≤ t.buffered) : t.buffer.take n = t.unreadBytes.take n := by
  rw [← length_buffer] at h
  exact (List.take_append_of_le_length h).symm

end Transport

namespace Connection

variable {S : Suite} {c c' : Connection} {asked fuel : Nat} {r : EStateM.Result Fault Connection Frame}

/-- **Receiving a frame is an attempt**: the bound that it sets itself is never reached. -/
theorem exists_tries_of_fuel (hopen : c.transport.isOpen = true) (hfuel : c.transport.arrived < fuel) :
    ∃ asked, Tries S asked c (receiveFrameWithin S fuel c) := by
  -- Every time that more is asked for and there is more, a byte is taken of those that have arrived.
  induction fuel generalizing c with
  | zero => exact absurd hfuel (Nat.not_lt_zero _)
  | succ fuel ih =>
    cases hread : Session.read S c.transport.buffer c.session with
    | error e s' =>
      rw [receiveFrameWithin_of_error hread]
      exact ⟨0, .refused hread⟩
    | ok step s' =>
      cases step with
      | frame f n =>
        rw [receiveFrameWithin_of_frame hread]
        exact ⟨0, .frame hread⟩
      | incomplete needed =>
        rw [receiveFrameWithin_of_incomplete hread]
        obtain ⟨hpos, -, -⟩ := Session.read_of_isPrefix_of_incomplete hread
        cases hfill : Transport.fill (c.transport.buffered + needed) c.transport with
        | error e t' =>
          have hstep : onTransport (Transport.fill (c.transport.buffered + needed)) { c with session := s' }
              = .error e ⟨t', s'⟩ := Step.onPart_of_error hfill
          rw [Step.bind_of_error hstep]
          exact ⟨1, .ended hread hfill⟩
        | ok _ t' =>
          have hstep : onTransport (Transport.fill (c.transport.buffered + needed)) { c with session := s' }
              = .ok () ⟨t', s'⟩ := Step.onPart_of_ok hfill
          rw [Step.bind_of_ok hstep]
          obtain ⟨bytes, long, kept⟩ := Transport.fill_eq_ok hopen hfill
          have hlength := congrArg List.length bytes
          rw [Transport.length_unreadBytes, Transport.length_unreadBytes, Transport.unread,
            Transport.unread] at hlength
          obtain ⟨asked, htries⟩ := ih (c := ⟨t', s'⟩) (kept.isOpen.trans hopen)
            (show t'.arrived < fuel by omega)
          exact ⟨asked + 1, .again hread hfill htries⟩

/-- **More is asked for at most twice**: once for the header, and once for the rest of the frame. -/
theorem Tries.asked_le (h : Tries S asked c r) (hopen : c.transport.isOpen = true) : asked ≤ 2 := by
  cases h with
  | frame => exact Nat.zero_le 2
  | refused => exact Nat.zero_le 2
  | ended => exact Nat.le_succ 1
  | again read fill rest =>
    obtain ⟨-, hlong₁, hkept⟩ := Transport.fill_eq_ok hopen fill
    rw [← Transport.length_buffer, ← Transport.length_buffer] at hlong₁
    cases rest with
    | frame => exact Nat.le_succ 1
    | refused => exact Nat.le_succ 1
    | ended => exact Nat.le_refl 2
    | again read' fill' rest' =>
      -- After the second time the header is there, so that there is no third.
      obtain ⟨-, hlong₂, -⟩ := Transport.fill_eq_ok (hkept.isOpen.trans hopen) fill'
      rw [← Transport.length_buffer, ← Transport.length_buffer] at hlong₂
      obtain ⟨-, hheader⟩ := Session.length_of_incomplete_again read hlong₁ read'
      have hthird {needed : Nat} {s'' : Session} (hread : Session.read S _ _ = .ok (.incomplete needed) s'') :=
        (Session.length_of_incomplete_again read' hlong₂ hread).1
      cases rest' with
      | frame => exact Nat.le_refl 2
      | refused => exact Nat.le_refl 2
      | ended read'' => exact absurd hheader (Nat.not_le.2 (hthird read''))
      | again read'' => exact absurd hheader (Nat.not_le.2 (hthird read''))

/-- What an attempt gives, said by what reading all unread bytes at once gives. -/
inductive Gives (c : Connection) :
    EStateM.Result Fault Session ReadStep → EStateM.Result Fault Connection Frame → Prop where
  /-- A frame, the bytes of which are taken. -/
  | frame {f : Frame} {n : Nat} {s' : Session} {t' : Transport}
    (bytes : t'.unreadBytes = c.transport.unreadBytes.drop n) (kept : c.transport.KeepsSending t') :
    Gives c (.ok (.frame f n) s') (.ok f ⟨t', s'⟩)
  /-- The bytes are refused, and stay. -/
  | refused {e : Fault} {s' : Session} {t' : Transport} (bytes : t'.unreadBytes = c.transport.unreadBytes)
    (kept : c.transport.KeepsSending t') : Gives c (.error e s') (.error e ⟨t', s'⟩)
  /-- There is no whole frame, and the bytes stay. -/
  | lacking {needed : Nat} {s' : Session} {t' : Transport} (bytes : t'.unreadBytes = c.transport.unreadBytes)
    (kept : c.transport.KeepsSending t') :
    Gives c (.ok (.incomplete needed) s')
      (.error (.transport (if c.transport.inputEnded then .peerClosed else .receiveFailed)) ⟨t', s'⟩)

theorem Gives.of_kept {x : EStateM.Result Fault Session ReadStep} (h : Gives c' x r)
    (bytes : c'.transport.unreadBytes = c.transport.unreadBytes) (kept : c.transport.KeepsSending c'.transport) :
    Gives c x r := by
  cases h with
  | frame bytes' kept' => exact .frame (bytes'.trans (congrArg _ bytes)) (kept.trans kept')
  | refused bytes' kept' => exact .refused (bytes'.trans bytes) (kept.trans kept')
  | lacking bytes' kept' =>
    rw [kept.inputEnded]
    exact .lacking (bytes'.trans bytes) (kept.trans kept')

/-- **An attempt gives what reading all unread bytes at once gives**, however they have arrived. -/
theorem Tries.gives (h : Tries S asked c r) (hopen : c.transport.isOpen = true) :
    Gives c (Session.read S c.transport.unreadBytes c.session) r := by
  induction h with
  | @frame c f n s' read =>
    obtain ⟨-, hlen, -⟩ := Session.length_of_read_eq_frame read
    rw [Session.read_of_isPrefix_of_frame read c.transport.buffer_isPrefix_unreadBytes]
    rw [Transport.length_buffer] at hlen
    exact .frame (Transport.unreadBytes_advance hlen) (.advance hlen)
  | @refused c e s' read =>
    rw [Session.read_of_isPrefix_of_error read c.transport.buffer_isPrefix_unreadBytes]
    exact .refused rfl (.refl _)
  | @ended c needed s' e t' read fill =>
    obtain ⟨bytes, short, kept, rfl⟩ := Transport.fill_eq_error hopen fill
    obtain ⟨-, -, hshort⟩ := Session.read_of_isPrefix_of_incomplete read
    rw [← Transport.length_buffer] at short
    rw [hshort _ c.transport.buffer_isPrefix_unreadBytes short]
    exact .lacking bytes kept
  | @again asked c needed s' t' r read fill rest ih =>
    obtain ⟨bytes, -, kept⟩ := Transport.fill_eq_ok hopen fill
    obtain ⟨-, hsame, -⟩ := Session.read_of_isPrefix_of_incomplete read
    have hgives := ih (kept.isOpen.trans hopen)
    rw [hsame _ c.transport.buffer_isPrefix_unreadBytes, ← bytes]
    exact hgives.of_kept bytes kept

/-- Receiving a frame asks for more at most twice. -/
theorem receiveFrame_tries (S : Suite) (hopen : c.transport.isOpen = true) :
    ∃ asked, asked ≤ 2 ∧ Tries S asked c (receiveFrame S c) := by
  obtain ⟨asked, htries⟩ : ∃ asked, Tries S asked c (receiveFrame S c) :=
    exists_tries_of_fuel hopen (Nat.lt_add_of_pos_right (Nat.succ_pos 1))
  exact ⟨asked, htries.asked_le hopen, htries⟩

/-- And it gives what reading all unread bytes at once gives. -/
theorem receiveFrame_gives (S : Suite) (hopen : c.transport.isOpen = true) :
    Gives c (Session.read S c.transport.unreadBytes c.session) (receiveFrame S c) := by
  obtain ⟨_, -, htries⟩ := receiveFrame_tries S hopen
  exact htries.gives hopen

theorem receiveFrameWithin_leavesSending (S : Suite) (fuel : Nat) (c : Connection) :
    (RecordM.after (receiveFrameWithin S fuel c)).session.sending = c.session.sending ∧
      (RecordM.after (receiveFrameWithin S fuel c)).session.config = c.session.config := by
  induction fuel generalizing c with
  | zero => exact ⟨rfl, rfl⟩
  | succ fuel ih =>
    have hleaves := Session.LeavesSending.read S c.transport.buffer c.session
    cases hread : Session.read S c.transport.buffer c.session with
    | error e s' =>
      rw [hread] at hleaves
      rw [receiveFrameWithin_of_error hread]
      exact hleaves
    | ok step s' =>
      rw [hread] at hleaves
      cases step with
      | frame f n =>
        rw [receiveFrameWithin_of_frame hread]
        exact hleaves
      | incomplete needed =>
        rw [receiveFrameWithin_of_incomplete hread]
        cases hfill : Transport.fill (c.transport.buffered + needed) c.transport with
        | error e t' =>
          have hstep : onTransport (Transport.fill (c.transport.buffered + needed)) { c with session := s' }
              = .error e ⟨t', s'⟩ := Step.onPart_of_error hfill
          rw [Step.bind_of_error hstep]
          exact hleaves
        | ok _ t' =>
          have hstep : onTransport (Transport.fill (c.transport.buffered + needed)) { c with session := s' }
              = .ok () ⟨t', s'⟩ := Step.onPart_of_ok hfill
          rw [Step.bind_of_ok hstep]
          obtain ⟨hsending, hconfig⟩ := ih ⟨t', s'⟩
          exact ⟨hsending.trans hleaves.1, hconfig.trans hleaves.2⟩

/-- **Receiving leaves what is sent, and the settings, alone**, also when it fails. -/
theorem receiveFrame_leavesSending (S : Suite) (c : Connection) :
    (RecordM.after (receiveFrame S c)).session.sending = c.session.sending ∧
      (RecordM.after (receiveFrame S c)).session.config = c.session.config :=
  receiveFrameWithin_leavesSending S _ c

/-- An end that has received a frame can send as before. -/
theorem receiveFrame_kept {f : Frame} (hopen : c.transport.isOpen = true) (h : receiveFrame S c = .ok f c') :
    c.transport.KeepsSending c'.transport ∧ c'.session.poisoned = false ∧
      c'.session.sending = c.session.sending ∧ c'.session.config = c.session.config := by
  have hgives := receiveFrame_gives S hopen
  have hleaves := receiveFrame_leavesSending S c
  rw [h] at hgives hleaves
  generalize hread : Session.read S c.transport.unreadBytes c.session = read at hgives
  cases hgives with
  | frame bytes kept =>
    obtain ⟨-, -, hsound⟩ := Session.length_of_read_eq_frame hread
    exact ⟨kept, hsound, hleaves⟩

end Connection

/-! ### Handshake messages -/

namespace Transport

variable {t : Transport}

/-- A handshake message as it is sent, behind its length. -/
def framed (m : Bytes) : Bytes := Bytes.ofNatLE 2 m.length ++ m

theorem length_framed (m : Bytes) : (framed m).length = 2 + m.length := by
  rw [framed, List.length_append, Bytes.length_ofNatLE]

/-- The first two bytes of a message as it is sent are its length. -/
theorem toNatLE_take_framed {m : Bytes} (hm : m.length < 65536) (rest : Bytes) :
    Bytes.toNatLE ((framed m ++ rest).take 2) = m.length := by
  rw [framed, List.append_assoc, List.take_left' (Bytes.length_ofNatLE 2 _), Bytes.toNatLE_ofNatLE hm]

/-- A stream starts with one message at most. -/
theorem framed_append_inj {m m' rest rest' : Bytes} (hm : m.length < 65536) (hm' : m'.length < 65536)
    (h : framed m ++ rest = framed m' ++ rest') : m = m' ∧ rest = rest' := by
  have hlength : m.length = m'.length := by
    rw [← toNatLE_take_framed hm rest, h, toNatLE_take_framed hm']
  obtain ⟨hown, hrest⟩ := List.append_inj h (by rw [length_framed, length_framed, hlength])
  rw [framed, framed, hlength] at hown
  exact ⟨List.append_cancel_left hown, hrest⟩

/-- The message behind a length that is there. -/
theorem eq_framed_append {bs : Bytes} {n : Nat} (hn : n = Bytes.toNatLE (bs.take 2)) (hlen : 2 + n ≤ bs.length) :
    n < 65536 ∧ bs = framed ((bs.drop 2).take n) ++ bs.drop (2 + n) := by
  have htwo : (bs.take 2).length = 2 := List.length_take_of_le (by omega)
  have hmessage : ((bs.drop 2).take n).length = n := List.length_take_of_le (by rw [List.length_drop]; omega)
  have hnumber := Bytes.ofNatLE_toNatLE (bs.take 2)
  rw [htwo, ← hn] at hnumber
  refine ⟨?_, ?_⟩
  · have hlt := Bytes.toNatLE_lt (bs.take 2)
    rw [htwo, ← hn] at hlt
    exact hlt
  · rw [framed, hmessage, hnumber, ← List.drop_drop, List.append_assoc, List.take_append_drop, List.take_append_drop]

/-- What receiving a handshake message can give. -/
inductive GivesMessage (t : Transport) : EStateM.Result Fault Transport Bytes → Prop where
  /-- The message, the bytes of which are taken. -/
  | message {m : Bytes} {t' : Transport} (fits : m.length < 65536)
    (bytes : t.unreadBytes = framed m ++ t'.unreadBytes) (kept : t.KeepsSending t') : GivesMessage t (.ok m t')
  /-- There is no whole message, and the bytes stay. -/
  | lacking {t' : Transport} (none : ∀ m rest, m.length < 65536 → t.unreadBytes ≠ framed m ++ rest)
    (bytes : t'.unreadBytes = t.unreadBytes) (kept : t.KeepsSending t') :
    GivesMessage t (.error (.transport (if t.inputEnded then .peerClosed else .receiveFailed)) t')

theorem receiveHandshake_gives (hopen : t.isOpen = true) : GivesMessage t (receiveHandshake t) := by
  unfold receiveHandshake
  cases hfill : fill 2 t with
  | error e t₁ =>
    rw [Step.bind_of_error hfill]
    obtain ⟨bytes, short, kept, rfl⟩ := fill_eq_error hopen hfill
    refine .lacking (fun m rest _ h => ?_) bytes kept
    rw [h, List.length_append, length_framed] at short
    omega
  | ok _ t₁ =>
    rw [Step.bind_of_ok hfill]
    obtain ⟨bytes₁, long₁, kept₁⟩ := fill_eq_ok hopen hfill
    rw [Step.get_bind, take_buffer long₁, bytes₁]
    generalize hn : Bytes.toNatLE (t.unreadBytes.take 2) = n
    have hopen₁ := kept₁.isOpen.trans hopen
    cases hfill₂ : fill (2 + n) t₁ with
    | error e t₂ =>
      rw [Step.bind_of_error hfill₂]
      obtain ⟨bytes₂, short, kept₂, rfl⟩ := fill_eq_error hopen₁ hfill₂
      rw [kept₁.inputEnded]
      refine .lacking (fun m rest hm h => ?_) (bytes₂.trans bytes₁) (kept₁.trans kept₂)
      rw [h, toNatLE_take_framed hm] at hn
      rw [bytes₁, h, List.length_append, length_framed] at short
      omega
    | ok _ t₂ =>
      rw [Step.bind_of_ok hfill₂]
      obtain ⟨bytes₂, long₂, kept₂⟩ := fill_eq_ok hopen₁ hfill₂
      have hnumber : n = Bytes.toNatLE (t₂.buffer.take 2) := by
        rw [take_buffer (by omega), bytes₂, bytes₁, hn]
      obtain ⟨hfits, hown⟩ := eq_framed_append hnumber (by rw [length_buffer]; exact long₂)
      have hkept : t.KeepsSending (t₂.advance (2 + n)) := kept₁.trans (kept₂.trans (.advance long₂))
      refine .message (Nat.lt_of_le_of_lt (List.length_take_le n _) hfits) ?_ hkept
      rw [← bytes₁, ← bytes₂, unreadBytes, unreadBytes, buffer_advance, incoming_advance, ← List.append_assoc,
        ← hown]

end Transport

/-! ### Runs of calls -/

/-- A transport that is to give these bytes, and after them that the peer has closed the connection. -/
structure Transport.Carries (t : Transport) (stream : Bytes) : Prop where
  /-- This end is open. -/
  isOpen : t.isOpen = true
  /-- Nothing else will arrive. -/
  ended : t.inputEnded = true
  /-- What is stored has not all been handed out. -/
  tidy : t.Tidy
  /-- The bytes are in the buffer, or they have arrived in some pieces. -/
  bytes : t.unreadBytes = stream

theorem Transport.KeepsSending.carries {t t' : Transport} {stream rest : Bytes} (kept : t.KeepsSending t')
    (h : t.Carries stream) (bytes : t'.unreadBytes = rest) : t'.Carries rest where
  isOpen := kept.isOpen.trans h.isOpen
  ended := kept.inputEnded.trans h.ended
  tidy := kept.tidy h.tidy
  bytes := bytes

/-- One end of a byte stream, with the sessions that frames are received in. -/
structure Endpoint (ι : Type) where
  /-- The byte stream. -/
  transport : Transport
  /-- The sessions. -/
  sessions : ι → Session

namespace Endpoint

/-- A call that receives something. -/
inductive Call (ι : Type) where
  /-- Receives a handshake message. -/
  | handshake
  /-- Receives a frame in one of the sessions. -/
  | frame (i : ι)

/-- What a call gives when it succeeds. -/
inductive Received where
  /-- A handshake message. -/
  | message (m : Bytes)
  /-- A frame. -/
  | frame (f : Frame)

variable {ι : Type} [DecidableEq ι]

/-- Makes a call. -/
def receive (S : Suite) (call : Call ι) (e : Endpoint ι) : Except Fault Received × Endpoint ι :=
  match call with
  | .handshake =>
    match Transport.receiveHandshake e.transport with
    | .ok m t => (.ok (.message m), { e with transport := t })
    | .error cause t => (.error cause, { e with transport := t })
  | .frame i =>
    match Connection.receiveFrame S ⟨e.transport, e.sessions i⟩ with
    | .ok f c => (.ok (.frame f), ⟨c.transport, Function.update e.sessions i c.session⟩)
    | .error cause c => (.error cause, ⟨c.transport, Function.update e.sessions i c.session⟩)

/-- Makes calls one after another, whether they succeed or fail. -/
def run (S : Suite) (e : Endpoint ι) : List (Call ι) → List (Except Fault Received) × Endpoint ι
  | [] => ([], e)
  | call :: calls =>
    let (answer, e) := receive S call e
    let (answers, e) := run S e calls
    (answer :: answers, e)

/-- **What a call gives**, said by the bytes that are still to come and by the sessions. -/
inductive Receives (S : Suite) (stream : Bytes) (sessions : ι → Session) :
    Call ι → Except Fault Received × Endpoint ι → Prop where
  /-- The message that the stream starts with. Its bytes are taken. -/
  | message {m rest : Bytes} {t : Transport} (fits : m.length < 65536) (bytes : stream = Transport.framed m ++ rest)
    (carries : t.Carries rest) : Receives S stream sessions .handshake (.ok (.message m), ⟨t, sessions⟩)
  /-- The stream starts with no whole message. Nothing is taken. -/
  | noMessage {t : Transport} (none : ∀ m rest, m.length < 65536 → stream ≠ Transport.framed m ++ rest)
    (carries : t.Carries stream) :
    Receives S stream sessions .handshake (.error (.transport .peerClosed), ⟨t, sessions⟩)
  /-- The frame that the stream starts with. Its bytes are taken. -/
  | frame {i : ι} {f : Frame} {own rest : Bytes} {s : Session} {t : Transport} (bytes : stream = own ++ rest)
    (reads : Session.read S own (sessions i) = .ok (.frame f own.length) s) (carries : t.Carries rest) :
    Receives S stream sessions (.frame i) (.ok (.frame f), ⟨t, Function.update sessions i s⟩)
  /-- The stream starts with no whole frame. Nothing is taken. -/
  | noFrame {i : ι} {needed : Nat} {s : Session} {t : Transport}
    (reads : Session.read S stream (sessions i) = .ok (.incomplete needed) s) (carries : t.Carries stream) :
    Receives S stream sessions (.frame i) (.error (.transport .peerClosed), ⟨t, Function.update sessions i s⟩)
  /-- What the stream starts with is refused. Nothing is taken. -/
  | refused {i : ι} {cause : Fault} {s : Session} {t : Transport}
    (reads : Session.read S stream (sessions i) = .error cause s) (carries : t.Carries stream) :
    Receives S stream sessions (.frame i) (.error cause, ⟨t, Function.update sessions i s⟩)

variable {S : Suite} {stream : Bytes} {sessions : ι → Session} {call : Call ι} {calls : List (Call ι)}
  {e e' : Endpoint ι} {x x' : Except Fault Received × Endpoint ι}

theorem receive_receives (S : Suite) (call : Call ι) (h : e.transport.Carries stream) :
    Receives S stream e.sessions call (receive S call e) := by
  obtain ⟨hopen, hended, htidy, rfl⟩ := h
  have hcarries : e.transport.Carries e.transport.unreadBytes := ⟨hopen, hended, htidy, rfl⟩
  cases call with
  | handshake =>
    have hgives := Transport.receiveHandshake_gives hopen
    rw [receive]
    generalize Transport.receiveHandshake e.transport = r at hgives
    cases hgives with
    | message fits bytes kept => exact .message fits bytes (kept.carries hcarries rfl)
    | lacking none bytes kept =>
      rw [hended]
      exact .noMessage none (kept.carries hcarries bytes)
  | frame i =>
    have hgives := Connection.receiveFrame_gives (c := ⟨e.transport, e.sessions i⟩) S hopen
    rw [receive]
    generalize Connection.receiveFrame S ⟨e.transport, e.sessions i⟩ = r at hgives
    generalize hread : Session.read S e.transport.unreadBytes (e.sessions i) = read at hgives
    cases hgives with
    | @frame f n s' t' bytes kept =>
      obtain ⟨-, hlen, -⟩ := Session.length_of_read_eq_frame hread
      have hown : (e.transport.unreadBytes.take n).length = n := List.length_take_of_le hlen
      have hwhole : Session.read S (e.transport.unreadBytes.take n) (e.sessions i)
          = .ok (.frame f (e.transport.unreadBytes.take n).length) s' := by
        rw [hown]
        exact Session.read_of_take_isPrefix hread (List.prefix_refl _)
      exact .frame (List.take_append_drop n _).symm hwhole (kept.carries hcarries bytes)
    | refused bytes kept => exact .refused hread (kept.carries hcarries bytes)
    | lacking bytes kept =>
      rw [hended]
      exact .noFrame hread (kept.carries hcarries bytes)

/-- Two ends that are to give the same bytes, for the same sessions. -/
structure Agree (e e' : Endpoint ι) : Prop where
  /-- The sessions are the same. -/
  sessions : e.sessions = e'.sessions
  /-- And so are the bytes. -/
  stream : ∃ rest, e.transport.Carries rest ∧ e'.transport.Carries rest

/-- What a call gives is decided by the bytes that are still to come and by the sessions. -/
theorem Receives.agree (h : Receives S stream sessions call x) (h' : Receives S stream sessions call x') :
    x.1 = x'.1 ∧ x.2.Agree x'.2 := by
  cases h with
  | message fits bytes carries =>
    cases h' with
    | message fits' bytes' carries' =>
      obtain ⟨rfl, rfl⟩ := Transport.framed_append_inj fits fits' (bytes.symm.trans bytes')
      exact ⟨rfl, rfl, _, carries, carries'⟩
    | noMessage none => exact absurd bytes (none _ _ fits)
  | noMessage none carries =>
    cases h' with
    | message fits' bytes' => exact absurd bytes' (none _ _ fits')
    | noMessage _ carries' => exact ⟨rfl, rfl, _, carries, carries'⟩
  | frame bytes reads carries =>
    have hread := Session.read_of_isPrefix_of_frame reads ⟨_, bytes.symm⟩
    cases h' with
    | frame bytes' reads' carries' =>
      have hread' := Session.read_of_isPrefix_of_frame reads' ⟨_, bytes'.symm⟩
      obtain ⟨hstep, rfl⟩ := EStateM.Result.ok.inj (hread.symm.trans hread')
      obtain ⟨rfl, hlength⟩ := ReadStep.frame.inj hstep
      obtain ⟨rfl, rfl⟩ := List.append_inj (bytes.symm.trans bytes') hlength
      exact ⟨rfl, rfl, _, carries, carries'⟩
    | noFrame reads' => cases hread.symm.trans reads'
    | refused reads' => cases hread.symm.trans reads'
  | noFrame reads carries =>
    cases h' with
    | frame bytes' reads' => cases (Session.read_of_isPrefix_of_frame reads' ⟨_, bytes'.symm⟩).symm.trans reads
    | noFrame reads' carries' =>
      cases reads.symm.trans reads'
      exact ⟨rfl, rfl, _, carries, carries'⟩
    | refused reads' => cases reads.symm.trans reads'
  | refused reads carries =>
    cases h' with
    | frame bytes' reads' => cases (Session.read_of_isPrefix_of_frame reads' ⟨_, bytes'.symm⟩).symm.trans reads
    | noFrame reads' => cases reads.symm.trans reads'
    | refused reads' carries' =>
      cases reads.symm.trans reads'
      exact ⟨rfl, rfl, _, carries, carries'⟩

/-- A call takes bytes from the start of the stream at most. -/
theorem Receives.exists_carries (h : Receives S stream sessions call x) :
    ∃ rest, rest <:+ stream ∧ x.2.transport.Carries rest := by
  cases h with
  | message _ bytes carries => exact ⟨_, ⟨_, bytes.symm⟩, carries⟩
  | frame bytes _ carries => exact ⟨_, ⟨_, bytes.symm⟩, carries⟩
  | noMessage _ carries => exact ⟨stream, List.suffix_refl _, carries⟩
  | noFrame _ carries => exact ⟨stream, List.suffix_refl _, carries⟩
  | refused _ carries => exact ⟨stream, List.suffix_refl _, carries⟩

/-- Calls on two ends that agree give the same, one by one, and leave ends that agree. -/
theorem Agree.run (h : e.Agree e') (calls : List (Call ι)) :
    (run S e calls).1 = (run S e' calls).1 ∧ (run S e calls).2.Agree (run S e' calls).2 := by
  induction calls generalizing e e' with
  | nil => exact ⟨rfl, h⟩
  | cons call calls ih =>
    obtain ⟨hsessions, stream, hcarries, hcarries'⟩ := h
    have hfirst' := receive_receives S call hcarries'
    rw [← hsessions] at hfirst'
    obtain ⟨hanswer, hagree⟩ := (receive_receives S call hcarries).agree hfirst'
    obtain ⟨hanswers, hlast⟩ := ih hagree
    exact ⟨List.cons_eq_cons.2 ⟨hanswer, hanswers⟩, hlast⟩

/-- Some calls take bytes from the start of the stream at most. -/
theorem run_carries (S : Suite) (h : e.transport.Carries stream) (calls : List (Call ι)) :
    ∃ rest, rest <:+ stream ∧ (run S e calls).2.transport.Carries rest := by
  induction calls generalizing e stream with
  | nil => exact ⟨stream, List.suffix_refl _, h⟩
  | cons call calls ih =>
    obtain ⟨rest, hrest, hcarries⟩ := (receive_receives S call h).exists_carries
    obtain ⟨rest', hrest', hcarries'⟩ := ih hcarries
    exact ⟨rest', hrest'.trans hrest, hcarries'⟩

/-- What the first of some calls gives is known, and so are the sessions and the bytes for the others. -/
theorem run_cons_of_receives (h : e.transport.Carries stream) {answer : Except Fault Received}
    (hfirst : Receives S stream e.sessions call (answer, e')) (calls : List (Call ι)) :
    (run S e (call :: calls)).1 = answer :: (run S e' calls).1 := by
  obtain ⟨hanswer, hagree⟩ := (receive_receives S call h).agree hfirst
  exact List.cons_eq_cons.2 ⟨hanswer, (hagree.run calls).1⟩

/-- **Receiving does not depend on how a stream is cut.** Two transports carry the same bytes, whatever they are, in
any pieces, and then the peer closes. Whatever is called on them, in the same sessions: call by call they give the
same, messages, frames and faults, and in the end the sessions are the same and the same bytes are left. And whatever
is called next, it takes the bytes of what it gives, and nothing if it gives nothing; to receive a frame it asks for
more bytes at most twice. -/
theorem reception_independent_of_cut (S : Suite) {t t' : Transport} (ht : t.Carries stream) (ht' : t'.Carries stream)
    (sessions : ι → Session) (calls : List (Call ι)) :
    (run S ⟨t, sessions⟩ calls).1 = (run S ⟨t', sessions⟩ calls).1 ∧
    (run S ⟨t, sessions⟩ calls).2.sessions = (run S ⟨t', sessions⟩ calls).2.sessions ∧
    ∃ rest, rest <:+ stream ∧
      (run S ⟨t, sessions⟩ calls).2.transport.Carries rest ∧ (run S ⟨t', sessions⟩ calls).2.transport.Carries rest ∧
      (∀ next, Receives S rest (run S ⟨t, sessions⟩ calls).2.sessions next
        (receive S next (run S ⟨t, sessions⟩ calls).2)) ∧
      ∀ i, ∃ asked, asked ≤ 2 ∧
        Connection.Tries S asked ⟨(run S ⟨t, sessions⟩ calls).2.transport, (run S ⟨t, sessions⟩ calls).2.sessions i⟩
          (Connection.receiveFrame S
            ⟨(run S ⟨t, sessions⟩ calls).2.transport, (run S ⟨t, sessions⟩ calls).2.sessions i⟩) := by
  have hagree : Agree (⟨t, sessions⟩ : Endpoint ι) ⟨t', sessions⟩ := ⟨rfl, stream, ht, ht'⟩
  obtain ⟨hanswers, hsessions, rest, hcarries, hcarries'⟩ := hagree.run (S := S) calls
  obtain ⟨rest₁, hsuffix, hcarries₁⟩ := run_carries S (e := ⟨t, sessions⟩) ht calls
  obtain rfl : rest₁ = rest := hcarries₁.bytes.symm.trans hcarries.bytes
  refine ⟨hanswers, hsessions, rest₁, hsuffix, hcarries, hcarries', fun next => ?_, fun i => ?_⟩
  · exact receive_receives S next hcarries
  · exact Connection.receiveFrame_tries S hcarries.isOpen

open Session.Sample in
/-- A handshake message, an encrypted frame and the first byte of another, on the suite of the protocol, arrive byte
by byte: the message and the frame are received, and then the stream ends. -/
theorem reception_independent_of_cut_on_sample :
    ∃ (c : Bytes) (s : Session), Session.decrypt Suite.standard c receiver = .ok frame s ∧
      (run Suite.standard
        ⟨{ incoming := (Transport.framed [7] ++ (c ++ [5])).map ([·]), inputEnded := true }, fun _ : Unit => receiver⟩
        [.handshake, .frame (), .frame ()]).1
          = [.ok (.message [7]), .ok (.frame frame), .error (.transport .peerClosed)] := by
  have hS := Suite.standard_exact.toSealing
  have hdecrypt := Session.decrypt_sealedFrame (s := receiver) (f := frame) hS rfl rfl (by decide)
    (by rw [Frame.length_pieces]; decide)
  generalize hc : receiver.receiving.sealedFrame Suite.standard receiver.config.rekeyInterval frame = c at hdecrypt
  have hread := (Session.decrypt_iff_read (S := Suite.standard) (s := receiver) rfl).1 hdecrypt
  have hone (stream : Bytes) : ({ incoming := [stream], inputEnded := true } : Transport).Carries stream :=
    ⟨rfl, rfl, .inl rfl, List.append_nil stream⟩
  have hbytes (stream : Bytes) :
      ({ incoming := stream.map ([·]), inputEnded := true } : Transport).Carries stream := by
    refine ⟨rfl, rfl, .inl rfl, ?_⟩
    show (stream.map ([·])).flatten = stream
    rw [← List.flatMap_def, List.flatMap_singleton']
  obtain ⟨hsame, -⟩ := reception_independent_of_cut Suite.standard (hone (Transport.framed [7] ++ (c ++ [5])))
    (hbytes (Transport.framed [7] ++ (c ++ [5]))) (fun _ : Unit => receiver) [.handshake, .frame (), .frame ()]
  refine ⟨c, _, hdecrypt, ?_⟩
  rw [← hsame, run_cons_of_receives (hone _) (.message (by decide) rfl (hone (c ++ [5]))),
    run_cons_of_receives (hone _) (.frame rfl hread (hone [5])),
    run_cons_of_receives (hone _) (.noFrame (Session.read_of_short rfl rfl (by decide)) (hone [5]))]
  rfl

end Endpoint

end Stratum
