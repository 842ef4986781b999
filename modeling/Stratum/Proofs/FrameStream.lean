import Stratum.Frame.Reader
import Stratum.Proofs.FrameDecoding

/-!
# Streams of frames

A stream of frames can be decoded at once, frame after frame, or it can be read as it
arrives, in pieces that have nothing to do with frames. This module shows that both
give the same frames.

* `FrameReader.Holds`: what a reader has before it, whatever it still keeps of the
  frames given back. Dropping those changes nothing (`FrameReader.Holds.compact`), so
  that it does not matter when it is done.
* `FrameReader.feed_of_holds` and `FrameReader.next_nexts`: what the two operations do
  to that.
* **`FrameReader.reading_independent_of_cut`**: whatever is fed to a reader and asked
  of it, in any order, its history is `FrameReader.History.Faithful` to the decoder.

A history counts the bytes that a reader has taken, the frames it has given back and
the faults it has answered with. It is the invariant of one step that ties the three
to each other (`FrameReader.History.Sound.step`).
-/

namespace Stratum

/-! ### The reader -/

namespace FrameReader

/-- What a reader has before it: the bytes that belong to no frame given back. -/
structure Holds (r : FrameReader) (limits : FrameLimits) (bs : Bytes) : Prop where
  /-- Its cap is the one it was made with. -/
  limits_eq : r.limits = limits
  /-- What was given back is in front of them. -/
  start_le : r.start ≤ r.stored.length
  /-- They are the others that it keeps. -/
  unread_eq : r.unread = bs
  /-- It goes on reading. -/
  sound : r.poisoned = false

theorem length_unread (r : FrameReader) : r.unread.length = r.buffered := List.length_drop

theorem Holds.buffered_eq {r : FrameReader} {limits : FrameLimits} {bs : Bytes} (h : r.Holds limits bs) :
    r.buffered = bs.length := by
  rw [← length_unread, h.unread_eq]

/-- Dropping the bytes of the frames given back loses nothing. -/
theorem Holds.compact {r : FrameReader} {limits : FrameLimits} {bs : Bytes} (h : r.Holds limits bs) :
    r.compact.Holds limits bs where
  limits_eq := h.limits_eq
  start_le := Nat.zero_le _
  unread_eq := h.unread_eq
  sound := h.sound

/-- A reader takes bytes behind those that it has. -/
theorem feed_of_holds {r : FrameReader} {limits : FrameLimits} {bs : Bytes} (h : r.Holds limits bs)
    (more : Bytes) : ∃ r', r.feed more = (.ok (), r') ∧ r'.Holds limits (bs ++ more) := by
  have hfed : ∀ r' : FrameReader, r'.Holds limits bs →
      { r' with stored := r'.stored ++ more }.Holds limits (bs ++ more) := by
    intro r' h'
    refine ⟨h'.limits_eq, ?_, ?_, h'.sound⟩
    · rw [List.length_append]
      exact Nat.le_add_right_of_le h'.start_le
    · rw [← h'.unread_eq]
      exact List.drop_append_of_le_length h'.start_le
  rw [feed, if_neg (Bool.not_eq_true _ ▸ h.sound)]
  refine ⟨_, rfl, hfed _ ?_⟩
  split
  · exact h.compact
  · exact h

/-- What an answer to the question for the next frame says of the bytes that are unread. -/
def Answers (limits : FrameLimits) (bs : Bytes) : Except Fault (Option Frame) → Prop
  | .ok (some f) => f.payload.length ≤ limits.maxPayload.toNat ∧ ∃ rest, bs = f.bytes ++ rest
  | .ok none => Frame.Incomplete limits bs
  | .error _ => Frame.OverCap limits bs

section

variable {limits : FrameLimits} {bs : Bytes} {answer : Except Fault (Option Frame)}

theorem Answers.frame_iff (h : Answers limits bs answer) {f : Frame} :
    answer = .ok (some f) ↔ Answers limits bs (.ok (some f)) := by
  constructor
  · rintro rfl
    exact h
  · rintro ⟨hwithin, rest, hbs⟩
    obtain ⟨hwhole, hcap⟩ := Frame.whole_of_bytes hwithin hbs
    match answer, h with
    | .ok (some g), ⟨_, rest', hbs'⟩ =>
      obtain ⟨rfl, -⟩ := Frame.bytes_append_inj (hbs'.symm.trans hbs)
      rfl
    | .ok none, h => exact absurd h hwhole
    | .error _, h => exact absurd h hcap

theorem Answers.none_iff (h : Answers limits bs answer) :
    answer = .ok none ↔ Frame.Incomplete limits bs := by
  constructor
  · rintro rfl
    exact h
  · intro hless
    match answer, h with
    | .ok (some g), ⟨hwithin, rest, hbs⟩ => exact absurd hless (Frame.whole_of_bytes hwithin hbs).1
    | .ok none, _ => rfl
    | .error _, h => exact absurd h hless.not_overCap

theorem Answers.error_iff (h : Answers limits bs answer) :
    (∃ e, answer = .error e) ↔ Frame.OverCap limits bs := by
  constructor
  · rintro ⟨e, rfl⟩
    exact h
  · intro hover
    match answer, h with
    | .ok (some g), ⟨hwithin, rest, hbs⟩ => exact absurd hover (Frame.whole_of_bytes hwithin hbs).2
    | .ok none, h => exact absurd hover h.not_overCap
    | .error e, _ => exact ⟨e, rfl⟩

end

/-- What asking a reader for the next frame does. -/
inductive Nexts (limits : FrameLimits) (bs : Bytes) (r : FrameReader) :
    Except Fault (Option Frame) × FrameReader → Prop
  /-- The frame that the bytes start with is given back. -/
  | frame {f : Frame} {rest : Bytes} {r' : FrameReader} (within : f.payload.length ≤ limits.maxPayload.toNat)
    (bytes_eq : bs = f.bytes ++ rest) (holds : r'.Holds limits rest) : Nexts limits bs r (.ok (some f), r')
  /-- There is less than a frame. -/
  | nothing {r' : FrameReader} (incomplete : Frame.Incomplete limits bs) (holds : r'.Holds limits bs) :
    Nexts limits bs r (.ok none, r')
  /-- There is a header over the cap. -/
  | refused (exceeds : Frame.OverCap limits bs) :
    Nexts limits bs r (.error (.frame .streamOverCap), { r with poisoned := true })

/-- **The reader does what the decoder finds.** -/
theorem next_nexts {r : FrameReader} {limits : FrameLimits} {bs : Bytes} (h : r.Holds limits bs) :
    Nexts limits bs r r.next := by
  obtain ⟨_, hdecode, hfinds⟩ := Frame.decode_finds limits (Cursor.ofBytes bs)
  rw [← h.limits_eq, ← h.unread_eq] at hdecode
  rw [next, if_neg (Bool.not_eq_true _ ▸ h.sound), hdecode]
  cases hfinds with
  | incomplete incomplete =>
    refine .nothing incomplete ?_
    split
    · exact h.compact
    · exact h
  | overCap exceeds => exact .refused exceeds
  | @frame f c' within passes =>
    have hbs : bs = f.bytes ++ c'.rest := passes.rest_eq
    have hposition : c'.position = f.bytes.length := passes.position_eq.trans (Nat.zero_add _)
    have hlen : r.stored.length - r.start = f.bytes.length + c'.rest.length := by
      rw [← List.length_append, ← hbs, ← h.buffered_eq, buffered]
    refine .frame within hbs ⟨h.limits_eq, ?_, ?_, h.sound⟩
    · have hstart := h.start_le
      show r.start + c'.position ≤ r.stored.length
      omega
    · show r.stored.drop (r.start + c'.position) = c'.rest
      rw [← List.drop_drop, show r.stored.drop r.start = bs from h.unread_eq, hbs, hposition, List.drop_left]

theorem Nexts.answers {limits : FrameLimits} {bs : Bytes} {r : FrameReader}
    {result : Except Fault (Option Frame) × FrameReader} (h : Nexts limits bs r result) :
    Answers limits bs result.1 := by
  cases h with
  | frame within bytes_eq holds => exact ⟨within, _, bytes_eq⟩
  | nothing incomplete holds => exact incomplete
  | refused exceeds => exact exceeds

/-! ### All frames that are there -/

/-- A reader before the bytes of some frames gives them back, one after the other. -/
theorem drainWithin_of_holds {r : FrameReader} {limits : FrameLimits} {frames : List Frame} {fuel : Nat}
    (hwithin : ∀ f ∈ frames, f.payload.length ≤ limits.maxPayload.toNat)
    (h : r.Holds limits (frames.flatMap Frame.bytes)) (hfuel : frames.length < fuel) :
    ∃ r', r.drainWithin fuel = (.ok frames, r') ∧ r'.Holds limits [] := by
  induction frames generalizing r fuel with
  | nil =>
    obtain ⟨fuel, rfl⟩ := Nat.exists_eq_add_one_of_ne_zero (Nat.ne_of_gt hfuel)
    have hnexts := next_nexts h
    have hless : Frame.Incomplete limits [] := .inl (Nat.zero_lt_succ _)
    cases hnext : r.next with
    | mk answer r' =>
      rw [hnext] at hnexts
      cases hnexts.answers.none_iff.2 hless
      cases hnexts with
      | nothing _ holds => exact ⟨r', by simp only [drainWithin, hnext], holds⟩
  | cons f frames ih =>
    obtain ⟨fuel, rfl⟩ := Nat.exists_eq_add_one_of_ne_zero (Nat.ne_of_gt (Nat.zero_lt_of_lt hfuel))
    obtain ⟨hf, hframes⟩ := List.forall_mem_cons.1 hwithin
    have hnexts := next_nexts h
    cases hnext : r.next with
    | mk answer r' =>
      rw [hnext] at hnexts
      cases hnexts.answers.frame_iff.2 ⟨hf, _, rfl⟩
      cases hnexts with
      | frame _ bytes_eq holds =>
        obtain ⟨-, rfl⟩ := Frame.bytes_append_inj bytes_eq
        obtain ⟨r'', hdrain, holds'⟩ := ih hframes holds (Nat.lt_of_succ_lt_succ hfuel)
        refine ⟨r'', ?_, holds'⟩
        simp only [drainWithin, hnext, hdrain]
        rfl

theorem drain_of_holds {r : FrameReader} {limits : FrameLimits} {frames : List Frame}
    (hwithin : ∀ f ∈ frames, f.payload.length ≤ limits.maxPayload.toNat)
    (h : r.Holds limits (frames.flatMap Frame.bytes)) :
    ∃ r', r.drain = (.ok frames, r') ∧ r'.Holds limits [] := by
  refine drainWithin_of_holds hwithin h ?_
  rw [h.buffered_eq]
  exact Nat.lt_succ_of_le (Frame.length_le_flatMap_bytes frames)

/-! ### What has gone in and come out -/

/-- What can be asked of a reader. -/
inductive Call where
  /-- To take bytes. -/
  | feed (bs : Bytes)
  /-- To give back the next frame. -/
  | next

/-- A reader with what it has taken and given so far. -/
structure History where
  /-- The reader. -/
  reader : FrameReader
  /-- All bytes that it has taken. -/
  fed : Bytes := []
  /-- All frames that it has given back. -/
  given : List Frame := []
  /-- All faults that it has answered with. -/
  faults : List Fault := []

namespace History

/-- The history after a call. Bytes are fed only if they are taken. -/
def step (h : History) : Call → History
  | .feed bs =>
    match h.reader.feed bs with
    | (.ok (), reader) => { h with reader, fed := h.fed ++ bs }
    | (.error e, reader) => { h with reader, faults := h.faults ++ [e] }
  | .next =>
    match h.reader.next with
    | (.ok (some f), reader) => { h with reader, given := h.given ++ [f] }
    | (.ok none, reader) => { h with reader }
    | (.error e, reader) => { h with reader, faults := h.faults ++ [e] }

/-- The history after one call after another. -/
def run (h : History) (calls : List Call) : History := calls.foldl step h

/-- The frames given back and the bytes unread are what was fed, and the reader goes on until it comes to
a header over the cap. -/
structure Sound (limits : FrameLimits) (h : History) : Prop where
  /-- The frames given back are within the cap. -/
  within : ∀ f ∈ h.given, f.payload.length ≤ limits.maxPayload.toNat
  /-- Nothing is lost, doubled or out of order. -/
  stream : h.fed = h.given.flatMap Frame.bytes ++ h.reader.unread
  /-- Before the first fault the reader holds what is unread, and behind it it is poisoned. -/
  state : h.reader.Holds limits h.reader.unread ∧ h.faults = [] ∨
    h.reader.poisoned = true ∧ Frame.OverCap limits h.reader.unread ∧ h.faults ≠ []
  /-- What was given back is in front of what is unread. -/
  start_le : h.reader.start ≤ h.reader.stored.length
  /-- There is one kind of fault. -/
  kind : ∀ e ∈ h.faults, e.kind = .invalidFrame

variable {limits : FrameLimits} {h : History}

theorem feed_of_poisoned {r : FrameReader} (hp : r.poisoned = true) (bs : Bytes) :
    r.feed bs = (.error (.frame .poisoned), r) := by
  rw [FrameReader.feed, if_pos hp]

theorem next_of_poisoned {r : FrameReader} (hp : r.poisoned = true) :
    r.next = (.error (.frame .poisoned), r) := by
  rw [FrameReader.next, if_pos hp]

/-- A poisoned reader stays as it is, and counts one fault more. -/
theorem Sound.refuse (hs : Sound limits h) (hp : h.reader.poisoned = true)
    (hover : Frame.OverCap limits h.reader.unread) :
    Sound limits { h with faults := h.faults ++ [.frame .poisoned] } where
  within := hs.within
  stream := hs.stream
  state := .inr ⟨hp, hover, List.append_ne_nil_of_right_ne_nil _ (List.cons_ne_nil _ _)⟩
  start_le := hs.start_le
  kind := List.forall_mem_append.2 ⟨hs.kind, List.forall_mem_singleton.2 rfl⟩

theorem Sound.feed (hs : Sound limits h) (bs : Bytes) : Sound limits (h.step (.feed bs)) := by
  rcases hs.state with ⟨hholds, hfaults⟩ | ⟨hp, hover, -⟩
  · obtain ⟨r', hfeed, hholds'⟩ := feed_of_holds hholds bs
    have hunread : r'.unread = h.reader.unread ++ bs := hholds'.unread_eq
    simp only [History.step, hfeed]
    refine ⟨hs.within, ?_, .inl ⟨hunread ▸ hholds', hfaults⟩, hholds'.start_le, hs.kind⟩
    show h.fed ++ bs = h.given.flatMap Frame.bytes ++ r'.unread
    rw [hunread, hs.stream, List.append_assoc]
  · simp only [History.step, feed_of_poisoned hp bs]
    exact hs.refuse hp hover

theorem Sound.next (hs : Sound limits h) : Sound limits (h.step .next) := by
  rcases hs.state with ⟨hholds, hfaults⟩ | ⟨hp, hover, -⟩
  · cases hnext : h.reader.next with
    | mk answer r' =>
      simp only [History.step, hnext]
      have hnexts := next_nexts hholds
      rw [hnext] at hnexts
      cases hnexts with
      | @frame f rest _ within bytes_eq holds =>
        refine ⟨?_, ?_, .inl ⟨holds.unread_eq.symm ▸ holds, hfaults⟩, holds.start_le, hs.kind⟩
        · exact List.forall_mem_append.2 ⟨hs.within, List.forall_mem_singleton.2 within⟩
        · show h.fed = (h.given ++ [f]).flatMap Frame.bytes ++ r'.unread
          rw [hs.stream, bytes_eq, holds.unread_eq, List.flatMap_append, List.flatMap_singleton, List.append_assoc]
      | nothing incomplete holds =>
        refine ⟨hs.within, ?_, .inl ⟨holds.unread_eq.symm ▸ holds, hfaults⟩, holds.start_le, hs.kind⟩
        show h.fed = h.given.flatMap Frame.bytes ++ r'.unread
        rw [hs.stream, holds.unread_eq]
      | refused exceeds =>
        refine ⟨hs.within, hs.stream, .inr ⟨rfl, exceeds, ?_⟩, hs.start_le, ?_⟩
        · exact List.append_ne_nil_of_right_ne_nil _ (List.cons_ne_nil _ _)
        · exact List.forall_mem_append.2 ⟨hs.kind, List.forall_mem_singleton.2 rfl⟩
  · simp only [History.step, next_of_poisoned hp]
    exact hs.refuse hp hover

/-- **Every call keeps the history sound.** -/
theorem Sound.step (hs : Sound limits h) (call : Call) : Sound limits (h.step call) := by
  cases call with
  | feed bs => exact hs.feed bs
  | next => exact hs.next

theorem Sound.run (hs : Sound limits h) (calls : List Call) : Sound limits (h.run calls) := by
  induction calls generalizing h with
  | nil => exact hs
  | cons call calls ih => exact ih (hs.step call)

/-- A poisoned reader answers every call with a fault, and nothing else changes. -/
theorem run_of_poisoned (hp : h.reader.poisoned = true) (calls : List Call) :
    ∃ faults, h.run calls = { h with faults := h.faults ++ faults } ∧ faults.length = calls.length := by
  induction calls generalizing h with
  | nil => exact ⟨[], by rw [List.append_nil]; rfl, rfl⟩
  | cons call calls ih =>
    have hstep : h.step call = { h with faults := h.faults ++ [.frame .poisoned] } := by
      cases call with
      | feed bs => simp only [step, feed_of_poisoned hp bs]
      | next => simp only [step, next_of_poisoned hp]
    obtain ⟨faults, hrun, hlen⟩ := ih (h := h.step call) (by rw [hstep]; exact hp)
    refine ⟨.frame .poisoned :: faults, ?_, congrArg Nat.succ hlen⟩
    show (h.step call).run calls = _
    rw [hrun, hstep, List.append_assoc]
    rfl

/-- What a reader has given back is what the decoder makes of everything that the reader has taken, and
what it gives next is what the decoder finds next. -/
structure Faithful (limits : FrameLimits) (h : History) : Prop where
  /-- The frames given back are the first ones that are decoded of all bytes fed, and the bytes unread are
  behind them. -/
  decoded : Frame.DecodedFrom limits (.ofBytes h.fed) h.given
    ⟨h.fed.length - h.reader.buffered, h.reader.unread⟩
  /-- What was given back is in front of what is unread. -/
  start_le : h.reader.start ≤ h.reader.stored.length
  /-- The bytes fed are those of the frames given back and those buffered. -/
  buffered : (h.given.flatMap Frame.bytes).length + h.reader.buffered = h.fed.length
  /-- The reader gives the frame that is decoded next. -/
  gives : ∀ f, h.reader.next.1 = .ok (some f) ↔ ∃ c,
    Frame.decode limits ⟨h.fed.length - h.reader.buffered, h.reader.unread⟩ = .ok (.frame f, c)
  /-- It gives nothing exactly if less than a frame is unread. -/
  waits : h.reader.next.1 = .ok none ↔ Frame.Incomplete limits h.reader.unread
  /-- It fails exactly if the next header declares a payload over the cap. -/
  refuses : (∃ e, h.reader.next.1 = .error e) ↔ Frame.OverCap limits h.reader.unread
  /-- It takes bytes until it has failed. -/
  takes : ∀ bs, (h.reader.feed bs).1 = .ok () ↔ h.faults = []
  /-- After it has failed it fails at every call, and changes no more. -/
  closed : h.faults ≠ [] → ∀ calls, ∃ faults, h.run calls = { h with faults := h.faults ++ faults } ∧
    faults.length = calls.length
  /-- There is one kind of fault. -/
  kind : ∀ e ∈ h.faults, e.kind = .invalidFrame

/-- What a reader answers next is what its unread bytes say, before and after its first fault. -/
theorem Sound.answers (hs : Sound limits h) : Answers limits h.reader.unread h.reader.next.1 := by
  rcases hs.state with ⟨hholds, -⟩ | ⟨hp, hover, -⟩
  · exact (next_nexts hholds).answers
  · rw [next_of_poisoned hp]
    exact hover

theorem Sound.takes (hs : Sound limits h) (bs : Bytes) : (h.reader.feed bs).1 = .ok () ↔ h.faults = [] := by
  rcases hs.state with ⟨hholds, hfaults⟩ | ⟨hp, -, hfaults⟩
  · obtain ⟨r', hfeed, -⟩ := feed_of_holds hholds bs
    rw [hfeed]
    exact ⟨fun _ => hfaults, fun _ => rfl⟩
  · rw [feed_of_poisoned hp bs]
    exact ⟨fun h' => (nomatch h'), fun h' => absurd h' hfaults⟩

theorem Sound.faithful (hs : Sound limits h) : Faithful limits h := by
  have hlen : (h.given.flatMap Frame.bytes).length + h.reader.buffered = h.fed.length := by
    rw [← length_unread, ← List.length_append, ← hs.stream]
  refine ⟨Frame.decodedFrom_iff.2 ⟨hs.within, hs.stream, ?_⟩, hs.start_le, hlen, fun f => ?_, hs.answers.none_iff,
    hs.answers.error_iff, hs.takes, fun hfaults => ?_, hs.kind⟩
  · show h.fed.length - h.reader.buffered = 0 + _
    omega
  · rw [hs.answers.frame_iff]
    exact (Frame.exists_decode_eq_frame_iff (c := ⟨_, h.reader.unread⟩)).symm
  · rcases hs.state with ⟨-, hnone⟩ | ⟨hp, -, -⟩
    · exact absurd hnone hfaults
    · exact run_of_poisoned hp

/-- A reader that has seen nothing. -/
theorem Sound.start (limits : FrameLimits) : Sound limits ⟨⟨limits, [], 0, false⟩, [], [], []⟩ where
  within _ hf := absurd hf List.not_mem_nil
  stream := rfl
  state := .inl ⟨⟨rfl, Nat.le_refl 0, rfl, rfl⟩, rfl⟩
  start_le := Nat.le_refl 0
  kind _ he := absurd he List.not_mem_nil

/-- If what was fed are the bytes of frames within the cap, the reader gives those that it has not given
yet. -/
theorem Sound.drain {frames : List Frame} (hs : Sound limits h)
    (hwithin : ∀ f ∈ frames, f.payload.length ≤ limits.maxPayload.toNat)
    (hfed : h.fed = frames.flatMap Frame.bytes) :
    ∃ rest r', h.reader.drain = (.ok rest, r') ∧ r'.buffered = 0 ∧ h.given ++ rest = frames := by
  obtain ⟨rest, rfl, hunread⟩ := Frame.flatMap_bytes_append_eq (hs.stream.symm.trans hfed)
  have hrest := (List.forall_mem_append.1 hwithin).2
  have hover : ¬ Frame.OverCap limits h.reader.unread := by
    rw [hunread]
    cases rest with
    | nil => exact (show Frame.Incomplete limits [] from .inl (by decide)).not_overCap
    | cons f rest => exact (Frame.whole_of_bytes (hrest f List.mem_cons_self) rfl).2
  obtain ⟨hholds, -⟩ := hs.state.resolve_right fun hp => hover hp.2.1
  rw [hunread] at hholds
  obtain ⟨r', hdrain, hempty⟩ := drain_of_holds hrest hholds
  exact ⟨rest, r', hdrain, hempty.buffered_eq, rfl⟩

end History

/-- **Reading does not depend on how the stream is cut.** Whatever is fed to a reader and asked of it, in
which pieces and in which order: its history is faithful to the decoder. So the bytes of frames within the
cap, in any pieces, are read as those frames. -/
theorem reading_independent_of_cut {limits : FrameLimits} {r : FrameReader} (hr : FrameReader.make limits = .ok r)
    (calls : List Call) :
    (History.run ⟨r, [], [], []⟩ calls).Faithful limits ∧
      ∀ (frames : List Frame) (pieces : List Bytes), frames.mapM Frame.encode = .ok pieces →
        (∀ f ∈ frames, f.payload.length ≤ limits.maxPayload.toNat) →
        (History.run ⟨r, [], [], []⟩ calls).fed = pieces.flatten →
          ∃ rest r', (History.run ⟨r, [], [], []⟩ calls).reader.drain = (.ok rest, r') ∧ r'.buffered = 0 ∧
            (History.run ⟨r, [], [], []⟩ calls).given ++ rest = frames := by
  have hs : (History.run ⟨r, [], [], []⟩ calls).Sound limits := by
    obtain ⟨_, -, hr⟩ := Attempt.bind_eq_ok_iff.1 hr
    cases hr
    exact (History.Sound.start limits).run calls
  refine ⟨hs.faithful, fun frames pieces hpieces hwithin hfed => ?_⟩
  rw [mapM_eq_ok Frame.encode_eq] at hpieces
  cases hpieces
  exact hs.drain hwithin (hfed.trans List.flatMap_def.symm)

namespace Sample

/-- A cap of 16 bytes. -/
def cap : FrameLimits := { maxPayload := 16 }

/-- Two frames, the second without a payload. -/
def frames : List Frame := [⟨0, 16, [4, 5, 6], by decide⟩, ⟨0x8000, 24, [], by decide⟩]

/-- Their bytes, cut inside both headers and at an empty piece. The reader drops the first frame when it is
asked for the second, of which one byte is there. -/
def calls : List Call :=
  [.feed [0, 0, 16], .next, .feed [], .feed [3, 0, 0, 4, 5, 6, 0], .next, .next, .feed [0x80, 24, 0, 0], .next,
    .feed [0]]

/-- A header that declares 17 bytes of payload. -/
def overCap : Bytes := [0, 0, 1, 17, 0, 0]

end Sample

open Sample in
/-- Two frames in five pieces, and a header over the cap behind them. -/
theorem reading_independent_of_cut_on_sample :
    ∃ r, FrameReader.make cap = .ok r ∧
      (History.run ⟨r, [], [], []⟩ (calls ++ [.next, .feed overCap, .next, .feed [1], .next])).Faithful cap ∧
      ∃ rest r', (History.run ⟨r, [], [], []⟩ calls).reader.drain = (.ok rest, r') ∧ r'.buffered = 0 ∧
        (History.run ⟨r, [], [], []⟩ calls).given ++ rest = frames := by
  have hr : FrameReader.make cap = .ok ⟨cap, [], 0, false⟩ := rfl
  exact ⟨_, hr, (reading_independent_of_cut hr _).1,
    (reading_independent_of_cut hr calls).2 frames _ rfl (by decide) (by decide)⟩

end FrameReader

end Stratum
