import Stratum.Proofs.RecordLayer
import Stratum.Transport

/-!
# One end of a stream of frames

One end of a connection receives the bytes that a sender makes of frame after frame,
in pieces that have nothing to do with frames. This module says what one attempt to
receive does, whatever has arrived so far, and what sending does.

* `Session.Awaits`: where a session is in the stream, at a header or behind one that
  it has opened and kept.
* `Session.read_of_awaits`: from the bytes at the start of the stream a session reads
  the next frame, if they hold it, and otherwise asks for bytes of it that are missing.
* **`Connection.receiveFrame_receives`**: an attempt to receive takes the next frame
  if it has arrived as a whole; otherwise it waits, and no byte is lost.
* `Connection.sendFrame_sends`: a frame is sent as a whole or not at all.

Nothing is assumed of the pieces, and the number of receives that one attempt may make
is shown to suffice.
-/

namespace Stratum

/-! ### The bytes of a stream -/

namespace Direction

variable (S : Suite) (interval : UInt64)

/-- Frames sealed one after another. -/
def sealedFrames : Direction → List Frame → Bytes
  | _, [] => []
  | d, f :: frames => d.sealedFrame S interval f ++ sealedFrames (d.afterFrame S interval f) frames

/-- The direction after frames. -/
def afterFrames (d : Direction) (frames : List Frame) : Direction :=
  frames.foldl (afterFrame S interval) d

end Direction

namespace Frame

/-- How many pieces frames have. -/
def totalPieces : List Frame → Nat
  | [] => 0
  | f :: frames => f.pieces.length + totalPieces frames

theorem totalPieces_append (frames : List Frame) (f : Frame) :
    totalPieces (frames ++ [f]) = totalPieces frames + f.pieces.length := by
  induction frames with
  | nil => exact Nat.add_comm _ _
  | cons g frames ih => rw [List.cons_append, totalPieces, ih, totalPieces, Nat.add_assoc]

end Frame

namespace Direction

variable {S : Suite} {interval : UInt64}

theorem sealedFrames_singleton (d : Direction) (f : Frame) :
    d.sealedFrames S interval [f] = d.sealedFrame S interval f := List.append_nil _

theorem sealedFrames_append (d : Direction) (frames more : List Frame) :
    d.sealedFrames S interval (frames ++ more)
      = d.sealedFrames S interval frames ++ (d.afterFrames S interval frames).sealedFrames S interval more := by
  induction frames generalizing d with
  | nil => rfl
  | cons g frames ih => rw [List.cons_append, sealedFrames, sealedFrames, ih, List.append_assoc]; rfl

theorem afterFrames_append (d : Direction) (frames more : List Frame) :
    d.afterFrames S interval (frames ++ more)
      = (d.afterFrames S interval frames).afterFrames S interval more := by
  rw [afterFrames, List.foldl_append]
  rfl

theorem room_afterFrames (S : Suite) (interval : UInt64) {d : Direction} {frames : List Frame}
    (h : Frame.totalPieces frames ≤ d.room) :
    (d.afterFrames S interval frames).room + Frame.totalPieces frames = d.room := by
  induction frames generalizing d with
  | nil => exact Nat.add_zero _
  | cons f frames ih =>
    rw [Frame.totalPieces] at h ⊢
    have hframe : (d.afterFrame S interval f).room + f.pieces.length = d.room := room_skip (by omega)
    have hrest := ih (show Frame.totalPieces frames ≤ (d.afterFrame S interval f).room by omega)
    show ((d.afterFrame S interval f).afterFrames S interval frames).room + _ = d.room
    omega

end Direction

/-- The bytes of frames that a session encrypts one after another. -/
def Session.sealedFrames (S : Suite) (s : Session) (frames : List Frame) : Bytes :=
  s.sending.sealedFrames S s.config.rekeyInterval frames

/-- They are what encrypting gives, frame by frame. -/
theorem Session.sealedFrames_of_encrypt {S : Suite} {s s' : Session} {f : Frame} {c : Bytes}
    (h : encrypt S f s = .ok c s') (frames : List Frame) :
    s.sealedFrames S (f :: frames) = c ++ s'.sealedFrames S frames := by
  obtain ⟨-, -, -, rfl, rfl⟩ := encrypt_eq_ok_iff.1 h
  rfl

/-- Those of the first frames come first. -/
theorem Session.sealedFrames_isPrefix (S : Suite) (s : Session) (frames more : List Frame) :
    s.sealedFrames S frames <+: s.sealedFrames S (frames ++ more) := by
  rw [sealedFrames, sealedFrames, Direction.sealedFrames_append]
  exact List.prefix_append _ _

/-! ### Where a session is -/

/-- A session awaits frames that are sealed from a direction on: it is at the header of the next one, or
it has opened that header and awaits the payload. -/
inductive Session.Awaits (S : Suite) (s : Session) (d : Direction) : List Frame → Prop
  /-- The next bytes are a header. -/
  | header {frames : List Frame} (pending : s.pendingHeader = none) (receiving : s.receiving = d) :
    Awaits S s d frames
  /-- The header of the next frame is opened and kept. -/
  | payload {f : Frame} {frames : List Frame} (pending : s.pendingHeader = some f.header)
    (receiving : s.receiving = d.next S s.config.rekeyInterval) : Awaits S s d (f :: frames)

namespace Session

variable {S : Suite} {s s' : Session} {d : Direction} {f : Frame} {frames : List Frame} {data more : Bytes}

/-- Enough bytes at the start of a stream start with its first piece. -/
theorem take_sealedFrames (hS : S.Sealing) {interval : UInt64}
    (hstream : data ++ more = d.sealedFrames S interval (f :: frames))
    (hlen : sealedHeaderLength ≤ data.length) :
    data.take sealedHeaderLength = S.encrypt d.cipher.key d.cipher.nonce [] f.header.bytes := by
  have hheader := Direction.length_encrypt_header hS d.cipher.key d.cipher.nonce f.header
  rw [← List.take_append_of_le_length hlen, hstream, Direction.sealedFrames, Direction.sealedFrame, Frame.pieces,
    Direction.sealed, List.append_assoc, List.take_left' hheader]

/-- Enough bytes at the start of a stream start with its first frame, and hold the pieces of its payload
behind the header. -/
theorem payload_sealedFrames (hS : S.Sealing) {interval : UInt64}
    (hstream : data ++ more = d.sealedFrames S interval (f :: frames))
    (hlen : frameSize f.header ≤ data.length) :
    (data.drop sealedHeaderLength).take (frameSize f.header - sealedHeaderLength)
      = (d.next S interval).sealed S interval (Bytes.chunks maxPiece f.payload) := by
  have htake : data.take (frameSize f.header) = d.sealedFrame S interval f := by
    rw [← List.take_append_of_le_length hlen, hstream, Direction.sealedFrames,
      List.take_left' (Direction.length_sealedFrame hS d f)]
  rw [← List.drop_take, htake]
  exact List.drop_left' (Direction.length_encrypt_header hS _ _ _)

/-- The header of the next frame is there as soon as its bytes are. -/
theorem currentHeader_of_awaits (hS : S.Sealing) (h : Awaits S s d (f :: frames))
    (hstream : data ++ more = d.sealedFrames S s.config.rekeyInterval (f :: frames))
    (hcap : f.payload.length ≤ s.config.maxPayload.toNat) (hroom : 0 < d.room)
    (hlen : s.pendingHeader = none → sealedHeaderLength ≤ data.length) :
    currentHeader S data s = .ok (some f.header)
      { s with receiving := d.next S s.config.rekeyInterval, pendingHeader := some f.header } := by
  refine Step.get_bind.trans ?_
  cases h with
  | header pending receiving =>
    subst receiving
    have hopen := openHeader_sealed hS hcap hroom
    rw [← take_sealedFrames hS hstream (hlen pending)] at hopen
    rw [pending]
    show (if data.length < sealedHeaderLength then _ else _ : SessionM (Option FrameHeader)) s = _
    rw [if_neg (Nat.not_lt.2 (hlen pending))]
    exact Step.bind_eq_ok_iff.2 ⟨_, _, hopen, rfl⟩
  | payload pending receiving =>
    have hs : s = { s with receiving := d.next S s.config.rekeyInterval, pendingHeader := some f.header } := by
      rw [← receiving, ← pending]
    rw [pending]
    exact congrArg (EStateM.Result.ok (some f.header)) hs

theorem Awaits.congr (h : Awaits S s d frames) (hpending : s'.pendingHeader = s.pendingHeader)
    (hreceiving : s'.receiving = s.receiving) (hconfig : s'.config = s.config) : Awaits S s' d frames := by
  cases h with
  | header pending receiving => exact .header (hpending.trans pending) (hreceiving.trans receiving)
  | payload pending receiving =>
    rw [← hconfig] at receiving
    exact .payload (hpending.trans pending) (hreceiving.trans receiving)

/-- Frames that come later change nothing. -/
theorem Awaits.append (h : Awaits S s d frames) (f : Frame) : Awaits S s d (frames ++ [f]) := by
  cases h with
  | header pending receiving => exact .header pending receiving
  | payload pending receiving => exact .payload pending receiving

/-- A session that differs from another in nothing but how far it has received. -/
def KeepsSending (s s' : Session) : Prop :=
  ∃ receiving pendingHeader, s' = { s with receiving, pendingHeader }

/-- What reading from the start of a stream can give. -/
inductive Reads (S : Suite) (d : Direction) (s : Session) (data : Bytes) :
    List Frame → EStateM.Result Fault Session ReadStep → Prop
  /-- The next frame, if its bytes are there. -/
  | frame {f : Frame} {frames : List Frame} (complete : frameSize f.header ≤ data.length) :
    Reads S d s data (f :: frames) (.ok (.frame f (frameSize f.header))
      { s with receiving := d.afterFrame S s.config.rekeyInterval f, pendingHeader := none })
  /-- Some bytes of it are missing, and no more than those are asked for. -/
  | incomplete {frames : List Frame} {needed : Nat} {s' : Session} (positive : 0 < needed)
    (missing : ∀ f ∈ frames.head?, data.length + needed ≤ frameSize f.header)
    (awaits : Awaits S s' d frames) (kept : s.KeepsSending s') :
    Reads S d s data frames (.ok (.incomplete needed) s')

/-- What is read of less than a header. -/
theorem read_of_short (hpoison : s.poisoned = false) (hpending : s.pendingHeader = none)
    (hlen : data.length < sealedHeaderLength) :
    Session.read S data s = .ok (.incomplete (sealedHeaderLength - data.length)) s := by
  have hcurrent : currentHeader S data s = .ok none s := by
    refine Step.get_bind.trans ?_
    rw [hpending]
    show (if data.length < sealedHeaderLength then _ else _ : SessionM (Option FrameHeader)) s = _
    rw [if_pos hlen]
    rfl
  exact (Step.bind_of_ok (checkPoison_of_sound hpoison)).trans (Step.bind_of_ok hcurrent)

/-- What is read once the header is known. -/
theorem read_of_currentHeader {h : FrameHeader} (hpoison : s.poisoned = false)
    (hcurrent : currentHeader S data s = .ok (some h) s') :
    Session.read S data s = (if data.length < frameSize h then return .incomplete (frameSize h - data.length)
      else do
        modify fun s => { s with pendingHeader := none }
        let f ← openPayload S h ((data.drop sealedHeaderLength).take (frameSize h - sealedHeaderLength))
        return .frame f (frameSize h) : SessionM ReadStep) s' := by
  refine (Step.bind_of_ok (checkPoison_of_sound hpoison)).trans ?_
  exact Step.bind_of_ok hcurrent

/-- **Reading goes along the stream.** -/
theorem read_of_awaits (hS : S.Sealing) (hpoison : s.poisoned = false) (h : Awaits S s d frames)
    (hstream : data ++ more = d.sealedFrames S s.config.rekeyInterval frames)
    (hfits : ∀ f ∈ frames.head?, f.payload.length ≤ s.config.maxPayload.toNat ∧ f.pieces.length ≤ d.room) :
    Reads S d s data frames (Session.read S data s) := by
  by_cases hshort : s.pendingHeader = none ∧ data.length < sealedHeaderLength
  · -- Not even the header is there.
    obtain ⟨hpending, hlen⟩ := hshort
    rw [read_of_short hpoison hpending hlen]
    refine .incomplete (Nat.sub_pos_of_lt hlen) ?_ h ⟨_, _, rfl⟩
    intro f _
    have hle := sealedHeaderLength_le_frameSize f.header
    omega
  · have hlen : s.pendingHeader = none → sealedHeaderLength ≤ data.length :=
      fun hpending => Nat.le_of_not_lt fun hlt => hshort ⟨hpending, hlt⟩
    cases frames with
    | nil =>
      -- A stream without frames holds no bytes.
      cases h with
      | header pending receiving =>
        have hnil : data = [] := (List.append_eq_nil_iff.1 hstream).1
        have hle := hlen pending
        rw [hnil] at hle
        exact absurd hle (by decide)
    | cons f frames =>
      obtain ⟨hcap, hroom⟩ := hfits f rfl
      obtain ⟨hpos, hroom⟩ := (Direction.succ_le_room_iff S s.config.rekeyInterval).1 hroom
      rw [read_of_currentHeader hpoison (currentHeader_of_awaits hS h hstream hcap hpos hlen)]
      by_cases hsize : data.length < frameSize f.header
      · rw [if_pos hsize]
        refine .incomplete (Nat.sub_pos_of_lt hsize) ?_ (.payload rfl rfl) ⟨_, _, rfl⟩
        intro g hg
        obtain rfl : f = g := Option.some.inj hg
        omega
      · rw [if_neg hsize]
        have hcomplete := Nat.le_of_not_lt hsize
        have hopen := openPayload_sealed
          (s := { s with receiving := d.next S s.config.rekeyInterval, pendingHeader := none }) hS hroom
        rw [payload_sealedFrames hS hstream hcomplete]
        show Reads S d s data (f :: frames) ((openPayload S f.header _ >>= fun f' =>
          pure (.frame f' (frameSize f.header)) : SessionM ReadStep)
            { s with receiving := d.next S s.config.rekeyInterval, pendingHeader := none })
        rw [Step.bind_of_ok hopen]
        exact .frame hcomplete

end Session

/-! ### Receiving bytes -/

namespace Transport

variable {t t' : Transport} {n : Nat}

@[simp] theorem length_buffer (t : Transport) : t.buffer.length = t.buffered := List.length_drop

/-- Dropping the bytes of messages handed out leaves the others. -/
@[simp] theorem buffer_compact (t : Transport) : t.compact.buffer = t.buffer := rfl

/-- Bytes that are handed out are those at the start of the buffer, whether they are dropped at once or not. -/
@[simp] theorem buffer_advance (n : Nat) (t : Transport) : (t.advance n).buffer = t.buffer.drop n := by
  rw [advance, buffer, buffer, List.drop_drop]
  by_cases hall : t.start + n = t.stored.length
  · rw [if_pos hall, hall, List.drop_length]
    rfl
  · rw [if_neg hall]

/-- What is stored has not all been handed out. -/
def Tidy (t : Transport) : Prop := t.start = 0 ∨ t.start < t.stored.length

/-- Then no more bytes are counted than are stored. -/
theorem Tidy.start_le (h : t.Tidy) : t.start ≤ t.stored.length := by
  rcases h with hzero | hlt
  · rw [hzero]
    exact Nat.zero_le _
  · exact Nat.le_of_lt hlt

/-- Handing out bytes of the buffer keeps a transport tidy: the last of them takes the others with it. -/
theorem Tidy.advance (h : t.Tidy) (hn : n ≤ t.buffered) : (t.advance n).Tidy := by
  have hle := h.start_le
  rw [buffered] at hn
  rw [Transport.advance]
  by_cases hall : t.start + n = t.stored.length
  · rw [if_pos hall]
    exact .inl rfl
  · rw [if_neg hall]
    exact .inr (show t.start + n < t.stored.length by omega)

/-- The bytes that have arrived and belong to no message handed out. -/
def unreadBytes (t : Transport) : Bytes := t.buffer ++ t.incoming.flatten

theorem length_unreadBytes (t : Transport) : t.unreadBytes.length = t.unread := by
  rw [unreadBytes, List.length_append, length_buffer]
  rfl

@[simp] theorem unreadBytes_outgoing (t : Transport) (bs : Bytes) :
    { t with outgoing := bs }.unreadBytes = t.unreadBytes := rfl

@[simp] theorem unreadBytes_inputEnded (t : Transport) (ended : Bool) :
    { t with inputEnded := ended }.unreadBytes = t.unreadBytes := rfl

/-- A piece that arrives is behind the bytes that are unread. -/
@[simp] theorem unreadBytes_incoming (t : Transport) (piece : Bytes) :
    { t with incoming := t.incoming ++ [piece] }.unreadBytes = t.unreadBytes ++ piece := by
  rw [unreadBytes, List.flatten_concat, ← List.append_assoc]
  rfl

@[simp] theorem incoming_advance (n : Nat) (t : Transport) : (t.advance n).incoming = t.incoming := by
  rw [advance]
  split <;> rfl

/-- Bytes that are handed out are no longer unread. -/
theorem unreadBytes_advance (h : n ≤ t.buffered) : (t.advance n).unreadBytes = t.unreadBytes.drop n := by
  rw [← length_buffer] at h
  rw [unreadBytes, buffer_advance, incoming_advance]
  exact (List.drop_append_of_le_length h).symm

/-- A transport that differs from another in nothing but how far it has received. -/
structure KeepsSending (t t' : Transport) : Prop where
  /-- What does not concern receiving is the same. -/
  same : ∃ stored start incoming, t' = { t with stored, start, incoming }
  /-- It is as tidy. -/
  tidy : t.Tidy → t'.Tidy

namespace KeepsSending

theorem refl (t : Transport) : t.KeepsSending t := ⟨⟨_, _, _, rfl⟩, id⟩

theorem trans {t'' : Transport} (h : t.KeepsSending t') (h' : t'.KeepsSending t'') : t.KeepsSending t'' := by
  obtain ⟨⟨_, _, _, rfl⟩, htidy⟩ := h
  obtain ⟨⟨_, _, _, rfl⟩, htidy'⟩ := h'
  exact ⟨⟨_, _, _, rfl⟩, htidy' ∘ htidy⟩

theorem isOpen (h : t.KeepsSending t') : t'.isOpen = t.isOpen := by
  obtain ⟨⟨_, _, _, rfl⟩, -⟩ := h
  rfl

theorem inputEnded (h : t.KeepsSending t') : t'.inputEnded = t.inputEnded := by
  obtain ⟨⟨_, _, _, rfl⟩, -⟩ := h
  rfl

/-- Handing out bytes of the buffer. -/
theorem advance (h : n ≤ t.buffered) : t.KeepsSending (t.advance n) where
  same := by
    rw [Transport.advance]
    split <;> exact ⟨_, _, _, rfl⟩
  tidy htidy := htidy.advance h

end KeepsSending

/-- Receiving moves bytes behind the stored ones, in order, until there are enough or none are left. It does so
only if none of the stored ones are handed out. -/
theorem receiveUpTo_spec {start : Nat} {stored : Bytes} (h : start = 0 ∨ n ≤ stored.length - start)
    (pieces : List Bytes) :
    (receiveUpTo n start stored pieces).1.drop start ++ (receiveUpTo n start stored pieces).2.flatten
        = stored.drop start ++ pieces.flatten ∧
      stored.length ≤ (receiveUpTo n start stored pieces).1.length ∧
      (n ≤ (receiveUpTo n start stored pieces).1.length - start ∨ (receiveUpTo n start stored pieces).2 = []) := by
  induction pieces generalizing stored with
  | nil => exact ⟨rfl, Nat.le_refl _, .inr rfl⟩
  | cons piece pieces ih =>
    rw [receiveUpTo]
    by_cases henough : n ≤ stored.length - start
    · rw [if_pos henough]
      exact ⟨rfl, Nat.le_refl _, .inl henough⟩
    · rw [if_neg henough]
      obtain rfl : start = 0 := h.resolve_right henough
      dsimp only [List.drop_zero, Nat.sub_zero]
      by_cases hwhole : piece.length ≤ max (n - stored.length) readChunk
      · rw [if_pos hwhole]
        have hstart : 0 = 0 ∨ n ≤ (stored ++ piece).length - 0 := .inl rfl
        obtain ⟨hbytes, hlong, hend⟩ := ih hstart
        rw [List.length_append] at hlong
        refine ⟨?_, by omega, hend⟩
        rw [hbytes, List.drop_zero, List.drop_zero, List.flatten_cons, List.append_assoc]
      · rw [if_neg hwhole]
        refine ⟨?_, ?_, .inl ?_⟩
        · rw [List.drop_zero, List.drop_zero, List.flatten_cons, List.append_assoc,
            ← List.append_assoc (piece.take _), List.take_append_drop, List.flatten_cons]
        · rw [List.length_append]
          exact Nat.le_add_right _ _
        · rw [List.length_append, List.length_take]
          omega

/-- What filling the buffer can give. -/
inductive Fills (t : Transport) (n : Nat) : EStateM.Result Fault Transport Unit → Prop
  /-- Enough bytes are in the buffer. -/
  | enough {t' : Transport} (bytes : t'.unreadBytes = t.unreadBytes) (long : n ≤ t'.buffered)
    (kept : t.KeepsSending t') : Fills t n (.ok () t')
  /-- All that have arrived are not enough. -/
  | short {t' : Transport} (bytes : t'.unreadBytes = t.unreadBytes) (short : t.unread < n)
    (kept : t.KeepsSending t') :
    Fills t n (.error (.transport (if t.inputEnded then .peerClosed else .receiveFailed)) t')

/-- The transport in which the buffer is filled: nothing in it is handed out, unless it needs no filling. -/
def readied (n : Nat) (t : Transport) : Transport := if 0 < t.start ∧ t.buffered < n then t.compact else t

theorem readied_kept (n : Nat) (t : Transport) : t.KeepsSending (t.readied n) := by
  rw [readied]
  split
  · exact ⟨⟨_, _, _, rfl⟩, fun _ => .inl rfl⟩
  · exact .refl t

theorem unreadBytes_readied (n : Nat) (t : Transport) : (t.readied n).unreadBytes = t.unreadBytes := by
  rw [readied]
  split <;> rfl

/-- And pieces are received only behind bytes none of which are handed out. -/
theorem start_readied (n : Nat) (t : Transport) : (t.readied n).start = 0 ∨ n ≤ (t.readied n).buffered := by
  rw [readied]
  split
  · exact .inl rfl
  · rename_i h
    omega

/-- The transport after receiving pieces. -/
def received (n : Nat) (t : Transport) : Transport :=
  { t with
    stored := (receiveUpTo n t.start t.stored t.incoming).1
    incoming := (receiveUpTo n t.start t.stored t.incoming).2 }

/-- Pieces that are received stay unread. -/
theorem unreadBytes_received (h : t.start = 0 ∨ n ≤ t.buffered) : (t.received n).unreadBytes = t.unreadBytes := by
  obtain ⟨hbytes, -, -⟩ := receiveUpTo_spec h t.incoming
  exact hbytes

theorem received_kept (h : t.start = 0 ∨ n ≤ t.buffered) : t.KeepsSending (t.received n) where
  same := ⟨_, _, _, rfl⟩
  tidy := by
    obtain ⟨-, hlong, -⟩ := receiveUpTo_spec h t.incoming
    rintro (hzero | hlt)
    · exact .inl hzero
    · exact .inr (Nat.lt_of_lt_of_le hlt hlong)

theorem fill_fills (hopen : t.isOpen = true) : Fills t n (fill n t) := by
  have hfill : fill n t = if ((t.readied n).received n).buffered < n
      then .error (.transport (if ((t.readied n).received n).inputEnded then .peerClosed else .receiveFailed))
        ((t.readied n).received n)
      else .ok () ((t.readied n).received n) := by
    refine Step.get_bind.trans ?_
    rw [hopen]
    show (if ((t.readied n).received n).buffered < n then _ else _ : TransportM Unit) _ = _
    split <;> rfl
  have hbytes : ((t.readied n).received n).unreadBytes = t.unreadBytes :=
    (unreadBytes_received (start_readied n t)).trans (unreadBytes_readied n t)
  have hkept : t.KeepsSending ((t.readied n).received n) := (readied_kept n t).trans (received_kept (start_readied n t))
  rw [hfill]
  by_cases hshort : ((t.readied n).received n).buffered < n
  · rw [if_pos hshort, hkept.inputEnded]
    refine .short hbytes ?_ hkept
    -- Too few are in the buffer, and so none are left to be received.
    obtain ⟨-, -, hend⟩ := receiveUpTo_spec (start_readied n t) (t.readied n).incoming
    have hnone : ((t.readied n).received n).incoming = [] := hend.resolve_left (Nat.not_le.2 hshort)
    rw [← length_unreadBytes, ← hbytes, length_unreadBytes, unread, arrived, hnone]
    exact hshort
  · rw [if_neg hshort]
    exact .enough hbytes (Nat.le_of_not_lt hshort) hkept

end Transport

/-! ### Receiving frames -/

namespace Connection

/-- A connection that differs from another in nothing but how far it has received. -/
structure KeepsSending (c c' : Connection) : Prop where
  /-- The transport has received further. -/
  transport : c.transport.KeepsSending c'.transport
  /-- The session has received further. -/
  session : c.session.KeepsSending c'.session

theorem KeepsSending.trans {c c' c'' : Connection} (h : c.KeepsSending c') (h' : c'.KeepsSending c'') :
    c.KeepsSending c'' := by
  obtain ⟨ht, ⟨_, _, hs⟩⟩ := h
  obtain ⟨ht', ⟨_, _, hs'⟩⟩ := h'
  rw [hs] at hs'
  exact ⟨ht.trans ht', ⟨_, _, hs'⟩⟩

/-- What an attempt to receive a frame can give. -/
inductive Receives (S : Suite) (d : Direction) (c : Connection) :
    List Frame → EStateM.Result Fault Connection Frame → Prop
  /-- The next frame, if it has arrived as a whole. -/
  | frame {f : Frame} {frames : List Frame} {c' : Connection}
    (complete : Session.frameSize f.header ≤ c.transport.unread)
    (bytes : c'.transport.unreadBytes = c.transport.unreadBytes.drop (Session.frameSize f.header))
    (receiving : c'.session.receiving = d.afterFrame S c.session.config.rekeyInterval f)
    (pending : c'.session.pendingHeader = none) (kept : c.KeepsSending c') :
    Receives S d c (f :: frames) (.ok f c')
  /-- Nothing yet. The bytes that have arrived stay, and so does the place in the stream. -/
  | wait {frames : List Frame} {c' : Connection}
    (missing : ∀ f ∈ frames.head?, c.transport.unread < Session.frameSize f.header)
    (bytes : c'.transport.unreadBytes = c.transport.unreadBytes)
    (awaits : c'.session.Awaits S d frames) (kept : c.KeepsSending c') :
    Receives S d c frames
      (.error (.transport (if c.transport.inputEnded then .peerClosed else .receiveFailed)) c')

variable {S : Suite} {d : Direction} {c c' : Connection} {frames : List Frame} {more : Bytes}

/-- What a receive gives later on, without a byte lost, it gives now. -/
theorem Receives.of_kept {r : EStateM.Result Fault Connection Frame} (h : Receives S d c' frames r)
    (bytes : c'.transport.unreadBytes = c.transport.unreadBytes) (kept : c.KeepsSending c') :
    Receives S d c frames r := by
  have hunread : c'.transport.unread = c.transport.unread := by
    rw [← Transport.length_unreadBytes, bytes, Transport.length_unreadBytes]
  obtain ⟨_, _, hs⟩ := kept.session
  have hended := kept.transport.inputEnded
  have hconfig : c'.session.config = c.session.config := by rw [hs]
  cases h with
  | frame complete bytes' receiving pending kept' =>
    rw [hunread] at complete
    rw [bytes] at bytes'
    rw [hconfig] at receiving
    exact .frame complete bytes' receiving pending (kept.trans kept')
  | wait missing bytes' awaits kept' =>
    rw [hunread] at missing
    rw [bytes] at bytes'
    rw [hended]
    exact .wait missing bytes' awaits (kept.trans kept')

theorem receiveFrameWithin_of_frame {fuel n : Nat} {f : Frame} {s' : Session}
    (h : Session.read S c.transport.buffer c.session = .ok (.frame f n) s') :
    receiveFrameWithin S (fuel + 1) c
      = .ok f ⟨c.transport.advance n, s'⟩ := by
  rw [receiveFrameWithin]
  refine Step.get_bind.trans ((Step.bind_of_ok (Step.onPart_of_ok h)).trans ?_)
  exact Step.bind_of_ok (Step.onPart_of_ok rfl)

theorem receiveFrameWithin_of_incomplete {fuel needed : Nat} {s' : Session}
    (h : Session.read S c.transport.buffer c.session = .ok (.incomplete needed) s') :
    receiveFrameWithin S (fuel + 1) c
      = (onTransport (Transport.fill (c.transport.buffered + needed)) >>= fun _ =>
          receiveFrameWithin S fuel) { c with session := s' } := by
  rw [receiveFrameWithin]
  exact Step.get_bind.trans (Step.bind_of_ok (Step.onPart_of_ok h))

/-- **An attempt to receive goes along the stream**, if it may try once more than there are bytes to
come. -/
theorem receiveFrameWithin_receives (hS : S.Sealing) {fuel : Nat} (hfuel : c.transport.arrived < fuel)
    (hopen : c.transport.isOpen = true) (hpoison : c.session.poisoned = false)
    (h : c.session.Awaits S d frames)
    (hstream : c.transport.unreadBytes ++ more
      = d.sealedFrames S c.session.config.rekeyInterval frames)
    (hfits : ∀ f ∈ frames.head?, f.payload.length ≤ c.session.config.maxPayload.toNat ∧
      f.pieces.length ≤ d.room) :
    Receives S d c frames (receiveFrameWithin S fuel c) := by
  -- Every receive that succeeds takes a byte that has arrived.
  induction fuel generalizing c with
  | zero => exact absurd hfuel (Nat.not_lt_zero _)
  | succ fuel ih =>
    have hread := Session.read_of_awaits hS hpoison h
      (hstream.symm.trans (List.append_assoc _ _ _)).symm hfits
    generalize hr : Session.read S c.transport.buffer c.session = r at hread
    cases hread with
    | frame complete =>
      rw [receiveFrameWithin_of_frame hr]
      rw [Transport.length_buffer] at complete
      have harrived : c.transport.buffered ≤ c.transport.unread := Nat.le_add_right _ _
      exact .frame (Nat.le_trans complete harrived) (Transport.unreadBytes_advance complete) rfl rfl
        ⟨.advance complete, ⟨_, _, rfl⟩⟩
    | @incomplete frames needed s' positive missing awaits kept =>
      rw [receiveFrameWithin_of_incomplete hr]
      rw [Transport.length_buffer] at missing
      obtain ⟨_, _, hs⟩ := kept
      have hfill := Transport.fill_fills (t := c.transport) (n := c.transport.buffered + needed) hopen
      generalize hr' : Transport.fill (c.transport.buffered + needed) c.transport = r' at hfill
      cases hfill with
      | @enough t' bytes long kept' =>
        have hstep : onTransport (Transport.fill (c.transport.buffered + needed)) { c with session := s' }
            = .ok () ⟨t', s'⟩ := Step.onPart_of_ok hr'
        rw [Step.bind_of_ok hstep]
        have hkept : c.KeepsSending ⟨t', s'⟩ := ⟨kept', ⟨_, _, hs⟩⟩
        have hlength := congrArg List.length bytes
        rw [Transport.length_unreadBytes, Transport.length_unreadBytes, Transport.unread, Transport.unread] at hlength
        refine Receives.of_kept (ih ?_ (kept'.isOpen.trans hopen) ?_ awaits ?_ ?_) bytes hkept
        · show t'.arrived < fuel
          omega
        · rw [hs]
          exact hpoison
        · rw [hs, bytes]
          exact hstream
        · rw [hs]
          exact hfits
      | @short t' bytes short kept' =>
        have hstep : onTransport (Transport.fill (c.transport.buffered + needed)) { c with session := s' }
            = .error _ ⟨t', s'⟩ := Step.onPart_of_error hr'
        rw [Step.bind_of_error hstep]
        refine .wait ?_ bytes awaits ⟨kept', ⟨_, _, hs⟩⟩
        intro f hf
        exact Nat.lt_of_lt_of_le short (missing f hf)

/-- **Receiving goes along the stream**: it takes the next frame as soon as it has arrived as a whole. -/
theorem receiveFrame_receives (hS : S.Sealing) (hopen : c.transport.isOpen = true)
    (hpoison : c.session.poisoned = false) (h : c.session.Awaits S d frames)
    (hstream : c.transport.unreadBytes ++ more
      = d.sealedFrames S c.session.config.rekeyInterval frames)
    (hfits : ∀ f ∈ frames.head?, f.payload.length ≤ c.session.config.maxPayload.toNat ∧
      f.pieces.length ≤ d.room) :
    Receives S d c frames (receiveFrame S c) :=
  receiveFrameWithin_receives hS (Nat.lt_add_of_pos_right (Nat.succ_pos 1)) hopen hpoison h hstream hfits

end Connection

/-! ### Sending frames -/

theorem Transport.send_of_open {t : Transport} (hopen : t.isOpen = true) (hbroken : t.outputBroken = false)
    (bs : Bytes) : send bs t = .ok () { t with outgoing := t.outgoing ++ bs } := by
  obtain ⟨isOpen, stored, start, incoming, inputEnded, outputBroken, outgoing, outputEnded⟩ := t
  dsimp only at hopen hbroken
  subst hopen hbroken
  rfl

namespace Connection

/-- What sending a frame can give. -/
inductive Sends (S : Suite) (f : Frame) (c : Connection) : EStateM.Result Fault Connection Unit → Prop
  /-- The frame is sealed and its bytes go behind those sent before. -/
  | sent (cap : f.payload.length ≤ c.session.config.maxPayload.toNat)
    (room : f.pieces.length ≤ c.session.sending.room) :
    Sends S f c (.ok ()
      { transport := { c.transport with outgoing := c.transport.outgoing
          ++ c.session.sending.sealedFrame S c.session.config.rekeyInterval f }
        session := { c.session with
          sending := c.session.sending.afterFrame S c.session.config.rekeyInterval f } })
  /-- The frame is too long or the nonces left are too few, and nothing has happened. -/
  | refused {e : Fault} (excess : ¬ (f.payload.length ≤ c.session.config.maxPayload.toNat ∧
      f.pieces.length ≤ c.session.sending.room)) :
    Sends S f c (.error e c)

/-- **A frame is sent as a whole or not at all.** -/
theorem sendFrame_sends (S : Suite) (f : Frame) {c : Connection} (hopen : c.transport.isOpen = true)
    (hbroken : c.transport.outputBroken = false) (hpoison : c.session.poisoned = false) :
    Sends S f c (sendFrame S f c) := by
  cases henc : Session.encrypt S f c.session with
  | ok bs s' =>
    obtain ⟨-, hcap, hroom, rfl, rfl⟩ := Session.encrypt_eq_ok_iff.1 henc
    have hok : sendFrame S f c = .ok () _ :=
      (Step.bind_of_ok (Step.onPart_of_ok henc)).trans (Step.onPart_of_ok (Transport.send_of_open hopen hbroken _))
    rw [hok]
    exact .sent hcap hroom
  | error e s' =>
    obtain rfl := Session.state_of_encrypt_eq_error henc
    have herror : sendFrame S f c = .error e c := Step.bind_of_error (Step.onPart_of_error henc)
    rw [herror]
    refine .refused ?_
    rintro ⟨hcap, hroom⟩
    have hok := (Session.encrypt_eq_ok_iff (S := S)).2 ⟨hpoison, hcap, hroom, rfl, rfl⟩
    cases hok.symm.trans henc

end Connection

end Stratum
