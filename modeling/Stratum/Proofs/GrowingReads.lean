import Stratum.Proofs.FailClosed

/-!
# Reading byte strings that grow

There are two ways to receive a frame. `Session.decrypt` is given its bytes at once;
`Session.read` is given byte strings that grow until they hold the frame, and keeps the
header between its calls. This module shows that both open the same pieces in the same
order, however the bytes arrive.

* `Session.Opening`: a byte string has a header, and the length that the header declares.
  Both ways of receiving depend on that (`Session.exists_opening_of_decrypt`,
  `Session.exists_opening_of_read`), and it says what `read` does with less and with more
  than the frame (`Session.Opening.mapM_read`).
* `Recorded.read_reads`: whatever the session and whatever the bytes, a call of `read`
  opens a piece of the byte string that lies behind what has been opened of it.
* `Recorded.Reaches.read`: so a run of such calls opens no byte twice, also when some of
  them fail.
* **`Session.read_agrees_with_decrypt`**: all of this, for every session that is at the
  start of a frame.
-/

namespace Stratum

namespace Session

variable {S : Suite} {s s₁ s' : Session} {h : FrameHeader} {f : Frame} {d p more : Bytes}

/-! ### A whole frame -/

/-- At the start of a frame, a session opens the header of a byte string that is as long as the header
declares. -/
structure Opening (S : Suite) (s : Session) (d : Bytes) (h : FrameHeader) (s₁ : Session) : Prop where
  /-- The session has not failed. -/
  sound : s.poisoned = false
  /-- No frame is partly read. -/
  pending : s.pendingHeader = none
  /-- The header is opened. -/
  opened : openHeader S (d.take sealedHeaderLength) s = .ok h s₁
  /-- The byte string ends where the frame does. -/
  size : d.length = frameSize h

namespace Opening

theorem kept (o : Opening S s d h s₁) : s₁.poisoned = false ∧ s₁.pendingHeader = none := by
  obtain ⟨hpoison, hpending⟩ := (opens_openHeader _).keeps o.opened
  exact ⟨hpoison.trans o.sound, hpending.trans o.pending⟩

theorem long (o : Opening S s d h s₁) : sealedHeaderLength ≤ d.length := by
  rw [o.size]
  exact sealedHeaderLength_le_frameSize h

theorem decrypt (o : Opening S s d h s₁) (hpayload : openPayload S h (d.drop sealedHeaderLength) s₁ = .ok f s') :
    decrypt S d s = .ok f s' := by
  have hlong := o.long
  have hsize := o.size
  unfold Session.decrypt
  refine checkPoison_bind_eq_ok_iff.2 ⟨o.sound, Step.get_bind.trans ?_⟩
  refine (Step.reject_eq_ok_iff fail_ne_ok).2 ⟨by simp [o.pending], ?_⟩
  refine (Step.reject_eq_ok_iff poison_ne_ok).2 ⟨by omega, ?_⟩
  refine Step.bind_eq_ok_iff.2 ⟨h, s₁, o.opened, ?_⟩
  refine (Step.reject_eq_ok_iff poison_ne_ok).2 ⟨by omega, ?_⟩
  exact (Step.reject_eq_ok_iff poison_ne_ok).2 ⟨by omega, hpayload⟩

/-- Bytes that go along with the frame and hold its header have the same header. -/
theorem take_eq (o : Opening S s d h s₁) (hp : p <+: d ++ more) (hlong : sealedHeaderLength ≤ p.length) :
    p.take sealedHeaderLength = d.take sealedHeaderLength := by
  obtain ⟨rest, hrest⟩ := hp
  rw [← List.take_append_of_le_length hlong, hrest, List.take_append_of_le_length o.long]

/-- The header is read from as many bytes of the frame as hold it. -/
theorem read_header (o : Opening S s d h s₁) (hp : p <+: d ++ more) (hlong : sealedHeaderLength ≤ p.length) :
    read S p s = readBehind S h p { s₁ with pendingHeader := some h } := by
  refine read_of_openHeader o.sound o.pending hlong ?_
  rw [o.take_eq hp hlong]
  exact o.opened

/-- And then it is not read again. -/
theorem read_kept (o : Opening S s d h s₁) (p : Bytes) :
    read S p { s₁ with pendingHeader := some h } = readBehind S h p { s₁ with pendingHeader := some h } :=
  read_of_pending (s := { s₁ with pendingHeader := some h }) o.kept.1 rfl

theorem readBehind_short (o : Opening S s d h s₁) (hshort : p.length < d.length) (t : Session) :
    readBehind S h p t = .ok (.incomplete (d.length - p.length)) t := by
  rw [o.size] at hshort ⊢
  exact readBehind_of_short hshort

theorem readBehind_whole (o : Opening S s d h s₁) (more : Bytes) :
    readBehind S h (d ++ more) { s₁ with pendingHeader := some h }
      = (openPayload S h (d.drop sealedHeaderLength) >>= fun f => pure (.frame f d.length)) s₁ := by
  have hsize : frameSize h ≤ (d ++ more).length := by
    rw [List.length_append, o.size]
    exact Nat.le_add_right _ _
  have hdrop : ((d ++ more).drop sealedHeaderLength).take (frameSize h - sealedHeaderLength)
      = d.drop sealedHeaderLength := by
    rw [List.drop_append_of_le_length o.long, List.take_left' (by rw [List.length_drop, o.size])]
  have hpending : ({ s₁ with pendingHeader := none } : Session) = s₁ := by
    rw [← o.kept.2]
  rw [readBehind_of_long hsize, hdrop, o.size]
  exact congrArg _ hpending

end Opening

/-- **What decrypting takes**, said without what it was sealed from. -/
theorem exists_opening_of_decrypt (hdecrypt : decrypt S d s = .ok f s') :
    ∃ h s₁, Opening S s d h s₁ ∧ openPayload S h (d.drop sealedHeaderLength) s₁ = .ok f s' := by
  unfold decrypt at hdecrypt
  obtain ⟨hpoison, hdecrypt⟩ := checkPoison_bind_eq_ok_iff.1 hdecrypt
  obtain ⟨hpending, hdecrypt⟩ := (Step.reject_eq_ok_iff fail_ne_ok).1 (Step.get_bind.symm.trans hdecrypt)
  obtain ⟨-, hdecrypt⟩ := (Step.reject_eq_ok_iff poison_ne_ok).1 hdecrypt
  obtain ⟨h, s₁, hheader, hdecrypt⟩ := Step.bind_eq_ok_iff.1 hdecrypt
  obtain ⟨htruncated, hdecrypt⟩ := (Step.reject_eq_ok_iff poison_ne_ok).1 hdecrypt
  obtain ⟨htrailing, hpayload⟩ := (Step.reject_eq_ok_iff poison_ne_ok).1 hdecrypt
  exact ⟨h, s₁, ⟨hpoison, by simpa using hpending, hheader, by omega⟩, hpayload⟩

/-- **What reading takes** as a frame that ends with the bytes given. -/
theorem exists_opening_of_read (hpending : s.pendingHeader = none)
    (hread : read S d s = .ok (.frame f d.length) s') :
    ∃ h s₁, Opening S s d h s₁ ∧ openPayload S h (d.drop sealedHeaderLength) s₁ = .ok f s' := by
  have hpoison := (checkPoison_bind_eq_ok_iff.1 hread).1
  rcases Nat.lt_or_ge d.length sealedHeaderLength with hshort | hlong
  · cases (read_of_short hpoison hpending hshort).symm.trans hread
  · cases hopen : openHeader S (d.take sealedHeaderLength) s with
    | error e s₁ => cases (read_of_openHeader_error hpoison hpending hlong hopen).symm.trans hread
    | ok h s₁ =>
      replace hread := (read_of_openHeader hpoison hpending hlong hopen).symm.trans hread
      rcases Nat.lt_or_ge d.length (frameSize h) with hshort | hwhole
      · cases (readBehind_of_short hshort).symm.trans hread
      · -- The frame takes all the bytes, so that its size is their number.
        obtain ⟨_, _, -, hret⟩ := Step.bind_eq_ok_iff.1 ((readBehind_of_long hwhole).symm.trans hread)
        have hsize : frameSize h = d.length := (ReadStep.frame.inj (EStateM.Result.ok.inj hret).1).2
        have o : Opening S s d h s₁ := ⟨hpoison, hpending, hopen, hsize.symm⟩
        have hbehind := o.readBehind_whole []
        rw [List.append_nil] at hbehind
        obtain ⟨f', s₂, hpayload, hret⟩ := Step.bind_eq_ok_iff.1 (hbehind.symm.trans hread)
        cases hret
        exact ⟨h, s₁, o, hpayload⟩

/-! ### Less and more than a frame -/

/-- How many bytes are asked for when so many bytes of a frame are there: those that its header lacks, and
after that those that the frame lacks. -/
def lacking (d p : Bytes) : Nat :=
  if p.length < sealedHeaderLength then sealedHeaderLength - p.length else d.length - p.length

/-- Part of a frame lacks some bytes. -/
theorem lacking_pos (h : p.length < d.length) : 1 ≤ lacking d p := by
  unfold lacking
  split <;> omega

theorem length_lt_of_ne (hp : p <+: d) (hne : p ≠ d) : p.length < d.length :=
  Nat.lt_of_le_of_ne hp.length_le fun hlength => hne (hp.eq_of_length hlength)

namespace Opening

/-- Reading the whole frame, and bytes behind it. -/
theorem read_whole (o : Opening S s d h s₁) (hpayload : openPayload S h (d.drop sealedHeaderLength) s₁ = .ok f s')
    (more : Bytes) : read S (d ++ more) s = .ok (.frame f d.length) s' := by
  have hlong : sealedHeaderLength ≤ (d ++ more).length := by
    have := o.long
    rw [List.length_append]
    omega
  rw [o.read_header (List.prefix_refl _) hlong, o.readBehind_whole more]
  exact Step.bind_of_ok hpayload

/-- Reading on when the header is kept. -/
theorem mapM_read_kept (o : Opening S s d h s₁)
    (hpayload : openPayload S h (d.drop sealedHeaderLength) s₁ = .ok f s') (more : Bytes) {parts : List Bytes}
    (hparts : ∀ p ∈ parts, p <+: d ∧ p ≠ d) (hlong : ∀ p ∈ parts, sealedHeaderLength ≤ p.length) :
    (parts ++ [d ++ more]).mapM (read S) { s₁ with pendingHeader := some h }
      = .ok (parts.map (fun p => .incomplete (lacking d p)) ++ [.frame f d.length]) s' := by
  induction parts with
  | nil =>
    have hread : read S (d ++ more) { s₁ with pendingHeader := some h } = .ok (.frame f d.length) s' :=
      (o.read_kept _).trans ((o.readBehind_whole more).trans (Step.bind_of_ok hpayload))
    exact Step.mapM_cons_eq_ok_iff.2 ⟨s', hread, rfl⟩
  | cons p parts ih =>
    obtain ⟨hp, hparts⟩ := List.forall_mem_cons.1 hparts
    obtain ⟨hheader, hlong⟩ := List.forall_mem_cons.1 hlong
    have hread : read S p { s₁ with pendingHeader := some h }
        = .ok (.incomplete (lacking d p)) { s₁ with pendingHeader := some h } := by
      rw [lacking, if_neg (Nat.not_lt.2 hheader), o.read_kept]
      exact o.readBehind_short (length_lt_of_ne hp.1 hp.2) _
    exact Step.mapM_cons_eq_ok_iff.2 ⟨_, hread, ih hparts hlong⟩

/-- **Reading a frame as it arrives.** Before all of it is there, each call says how much is lacking. -/
theorem mapM_read (o : Opening S s d h s₁)
    (hpayload : openPayload S h (d.drop sealedHeaderLength) s₁ = .ok f s') (more : Bytes) {parts : List Bytes}
    (hparts : ∀ p ∈ parts, p <+: d ∧ p ≠ d) (hgrow : parts.Pairwise fun p q => p.length ≤ q.length) :
    (parts ++ [d ++ more]).mapM (read S) s
      = .ok (parts.map (fun p => .incomplete (lacking d p)) ++ [.frame f d.length]) s' := by
  induction parts with
  | nil => exact Step.mapM_cons_eq_ok_iff.2 ⟨s', o.read_whole hpayload more, rfl⟩
  | cons p parts ih =>
    obtain ⟨hp, hrest⟩ := List.forall_mem_cons.1 hparts
    obtain ⟨hle, hgrow⟩ := List.pairwise_cons.1 hgrow
    rw [List.map_cons, lacking]
    rcases Nat.lt_or_ge p.length sealedHeaderLength with hshort | hlong
    · rw [if_pos hshort]
      exact Step.mapM_cons_eq_ok_iff.2 ⟨s, read_of_short o.sound o.pending hshort, ih hrest hgrow⟩
    · -- From the first part on that holds the header, it is kept.
      have hread : read S p s = .ok (.incomplete (d.length - p.length)) { s₁ with pendingHeader := some h } := by
        rw [o.read_header (hp.1.trans (List.prefix_append d [])) hlong]
        exact o.readBehind_short (length_lt_of_ne hp.1 hp.2) _
      have hkept := o.mapM_read_kept hpayload more hrest fun q hq => Nat.le_trans hlong (hle q hq)
      rw [if_neg (Nat.not_lt.2 hlong)]
      exact Step.mapM_cons_eq_ok_iff.2 ⟨_, hread, hkept⟩

end Opening

/-- Decrypting and reading take the same, and leave the same. -/
theorem decrypt_iff_read (hpending : s.pendingHeader = none) :
    decrypt S d s = .ok f s' ↔ read S d s = .ok (.frame f d.length) s' := by
  constructor
  · intro hdecrypt
    obtain ⟨h, s₁, o, hpayload⟩ := exists_opening_of_decrypt hdecrypt
    have hread := o.read_whole hpayload []
    rwa [List.append_nil] at hread
  · intro hread
    obtain ⟨h, s₁, o, hpayload⟩ := exists_opening_of_read hpending hread
    exact o.decrypt hpayload

/-- None of some calls of `read`, one after another, gives a frame. -/
def NoneGivesFrame (S : Suite) : Session → List Bytes → Prop
  | _, [] => True
  | s, p :: parts =>
    (∀ f n s', read S p s ≠ .ok (.frame f n) s') ∧ NoneGivesFrame S (RecordM.after (read S p s)) parts

/-- The bytes of a byte string that a session has opened when it keeps their header. -/
def seen (s : Session) (p : Bytes) : Bytes := if s.pendingHeader.isSome then p.take sealedHeaderLength else []

theorem seen_of_none (hpending : s.pendingHeader = none) (p : Bytes) : s.seen p = [] := by
  simp [seen, hpending]

theorem seen_of_some (hpending : s.pendingHeader = some h) (p : Bytes) : s.seen p = p.take sealedHeaderLength := by
  simp [seen, hpending]

theorem seen_isPrefix (s : Session) (p : Bytes) : s.seen p <+: p := by
  rw [seen]
  split
  · exact List.take_prefix _ _
  · exact List.nil_prefix

/-- Bytes that follow the header are not opened with it. -/
theorem seen_eq_of_isPrefix {q : Bytes} (hgrow : p <+: q)
    (hlong : s.pendingHeader.isSome = true → sealedHeaderLength ≤ p.length) : s.seen q = s.seen p := by
  rw [seen, seen]
  split
  · rename_i hsome
    obtain ⟨rest, rfl⟩ := hgrow
    exact List.take_append_of_le_length (hlong hsome)
  · rfl

end Session

/-! ### Which bytes a step opens -/

/-- A payload that is not empty has one piece more than what is left of it behind the first. -/
theorem pieceCount_of_ne_zero {left : Nat} (h : left ≠ 0) : pieceCount left = pieceCount (left - maxPiece) + 1 := by
  have hmax : maxPiece = 65519 := rfl
  rw [pieceCount, pieceCount, hmax]
  omega

namespace Recorded

variable {r r' r₁ : Recorded} {bs bs' : Bytes}

/-- From one record to another, pieces are opened that are sealed to these bytes, one after another. -/
def Opened (r : Recorded) (bs : Bytes) (r' : Recorded) : Prop :=
  ∃ passed, r'.received = r.received ++ passed ∧ passed.flatMap Passage.sealed = bs ∧ ∀ p ∈ passed, p.sealed ≠ []

theorem Opened.of_received_eq (h : r'.received = r.received) : r.Opened [] r' :=
  ⟨[], by rw [h, List.append_nil], rfl, fun _ hp => absurd hp List.not_mem_nil⟩

theorem Opened.trans (h : r.Opened bs r₁) (h' : r₁.Opened bs' r') : r.Opened (bs ++ bs') r' := by
  obtain ⟨passed, hreceived, rfl, hne⟩ := h
  obtain ⟨passed', hreceived', rfl, hne'⟩ := h'
  refine ⟨passed ++ passed', ?_, List.flatMap_append, List.forall_mem_append.2 ⟨hne, hne'⟩⟩
  rw [hreceived', hreceived, List.append_assoc]

end Recorded

namespace RecordM

open Recorded

variable {α β : Type} {bs bs' : Bytes}

/-- What is made of the answer does not matter to the state. -/
theorem after_map {σ : Type} (g : α → β) (m : EStateM Fault σ α) (x : σ) : after ((g <$> m) x) = after (m x) := by
  show after (EStateM.map g m x) = _
  rw [EStateM.map]
  cases m x <;> rfl

/-- A step opens the pieces that are sealed to these bytes; if it fails, it opens the first of them at most. -/
structure Takes (m : RecordM α) (bs : Bytes) : Prop where
  /-- If it succeeds, it opens them all. -/
  ok : ∀ {r a r'}, m r = .ok a r' → r.Opened bs r'
  /-- If it fails, it may have opened some. -/
  error : ∀ {r e r'}, m r = .error e r' → ∃ taken, taken <+: bs ∧ r.Opened taken r'

namespace Takes

theorem pure (a : α) : Takes (Pure.pure a : RecordM α) [] where
  ok h := by
    cases h
    exact .of_received_eq rfl
  error h := nomatch h

theorem throw (e : Fault) : Takes (MonadExcept.throw e : RecordM α) [] where
  ok h := nomatch h
  error h := by
    cases h
    exact ⟨[], List.nil_prefix, .of_received_eq rfl⟩

theorem quietly (m : SessionM α) : Takes (RecordM.quietly m) [] where
  ok h := by
    obtain ⟨s, -, rfl⟩ := quietly_eq_ok_iff.1 h
    exact .of_received_eq rfl
  error {r e r'} h := by
    refine ⟨[], List.nil_prefix, .of_received_eq ?_⟩
    cases hm : m r.session with
    | ok a s => cases (quietly_of_ok hm).symm.trans h
    | error e s =>
      cases (quietly_of_error hm).symm.trans h
      rfl

theorem bind {m : RecordM α} {f : α → RecordM β} (hm : Takes m bs) (hf : ∀ a, Takes (f a) bs') :
    Takes (m >>= f) (bs ++ bs') where
  ok h := by
    obtain ⟨a, r₁, hfirst, hsecond⟩ := Step.bind_eq_ok_iff.1 h
    exact (hm.ok hfirst).trans ((hf a).ok hsecond)
  error h := by
    rcases Step.bind_eq_error_iff.1 h with hfirst | ⟨a, r₁, hfirst, hsecond⟩
    · obtain ⟨taken, htaken, hopened⟩ := hm.error hfirst
      exact ⟨taken, htaken.trans (List.prefix_append _ _), hopened⟩
    · obtain ⟨taken, htaken, hopened⟩ := (hf a).error hsecond
      exact ⟨bs ++ taken, (List.prefix_append_right_inj bs).2 htaken, (hm.ok hfirst).trans hopened⟩

/-- A step behind which no piece is opened. -/
theorem bind_quiet {m : RecordM α} {f : α → RecordM β} (hm : Takes m bs) (hf : ∀ a, Takes (f a) []) :
    Takes (m >>= f) bs := by
  have hboth := hm.bind hf
  rwa [List.append_nil] at hboth

/-- A step that is refused under a condition. -/
theorem refused {c : Prop} [Decidable c] {x : RecordM Unit} {k : Unit → RecordM α} (hx : Takes x [])
    (hk : Takes (k ()) bs) : Takes (if c then x >>= k else k ()) bs := by
  split
  · exact hx.bind fun _ => hk
  · exact hk

end Takes

end RecordM

namespace Recorded

open RecordM

variable {S : Suite} {r r' : Recorded} {h : FrameHeader} {p q sealed : Bytes}

theorem takes_openPiece (hne : sealed ≠ []) : Takes (openPiece S sealed) sealed where
  ok {r a r'} h := by
    cases hs : Session.openPiece S sealed r.session with
    | error e s => cases (openPiece_of_error hs).symm.trans h
    | ok piece s =>
      obtain ⟨-, -, hok, -⟩ := openPiece_of_ok hs
      cases hok.symm.trans h
      refine ⟨[_], rfl, List.append_nil _, fun p hp => ?_⟩
      rw [List.mem_singleton.1 hp]
      exact hne
  error {r e r'} h := by
    refine ⟨[], List.nil_prefix, .of_received_eq ?_⟩
    cases hs : Session.openPiece S sealed r.session with
    | error e s =>
      cases (openPiece_of_error hs).symm.trans h
      rfl
    | ok piece s =>
      obtain ⟨-, -, hok, -⟩ := openPiece_of_ok hs
      cases hok.symm.trans h

theorem takes_openHeader (hne : sealed ≠ []) : Takes (openHeader S sealed) sealed := by
  refine (takes_openPiece hne).bind_quiet fun bs => ?_
  cases FrameHeader.peek? bs with
  | none => exact .quietly _
  | some h => exact (Takes.quietly get).bind_quiet fun s => .refused (.quietly _) (.pure h)

/-- The pieces of a payload are opened one after another, each of them once. -/
theorem takes_openPieces {left : Nat} (hlength : sealed.length = left + pieceCount left * Aead.tagLength) :
    Takes (openPieces S left sealed) sealed := by
  induction left using Nat.strongRecOn generalizing sealed with
  | ind left ih =>
    have hmax : maxPiece = 65519 := rfl
    have htag : Aead.tagLength = 16 := rfl
    rw [openPieces]
    by_cases hleft : left = 0
    · subst hleft
      obtain rfl : sealed = [] := List.length_eq_zero_iff.1 (hlength.trans (by decide))
      exact .pure []
    · rw [pieceCount_of_ne_zero hleft, Nat.succ_mul] at hlength
      have hrest : (sealed.drop (min left maxPiece + Aead.tagLength)).length
          = left - maxPiece + pieceCount (left - maxPiece) * Aead.tagLength := by
        rw [List.length_drop]
        omega
      have htake : ¬ (sealed.take (min left maxPiece + Aead.tagLength)).length
          < min left maxPiece + Aead.tagLength := by
        rw [List.length_take]
        omega
      have hne : sealed.take (min left maxPiece + Aead.tagLength) ≠ [] := by
        intro hnil
        rw [hnil, List.length_nil] at htake
        omega
      rw [dif_neg hleft, if_neg htake]
      have hbehind := ih (left - maxPiece) (by omega) hrest
      have hboth := (takes_openPiece (S := S) hne).bind fun piece =>
        hbehind.bind_quiet fun rest => .pure (piece ++ rest)
      rwa [List.take_append_drop] at hboth

theorem takes_openPayload (hlength : sealed.length = Session.frameSize h - sealedHeaderLength) :
    Takes (openPayload S h sealed) sealed := by
  have hsize : sealed.length = h.payloadLength.toNat + pieceCount h.payloadLength.toNat * Aead.tagLength := by
    rw [hlength, Session.frameSize_eq]
    omega
  refine (takes_openPieces hsize).bind_quiet fun payload => ?_
  cases Frame.make h.extensionType h.messageType payload with
  | ok f => exact .pure f
  | error e => exact .throw e

/-! ### Which bytes a call of `read` opens -/

/-- Reads what a header declares. -/
def readBehind (S : Suite) (h : FrameHeader) (p : Bytes) : RecordM ReadStep :=
  if p.length < Session.frameSize h then return .incomplete (Session.frameSize h - p.length)
  else do
    quietly (modify fun s => { s with pendingHeader := none })
    let f ← openPayload S h ((p.drop sealedHeaderLength).take (Session.frameSize h - sealedHeaderLength))
    return .frame f (Session.frameSize h)

theorem read_of_poisoned (hpoison : r.session.poisoned = true) : read S p r = .error (.session .poisoned) r :=
  Step.bind_of_error (quietly_of_error (Session.checkPoison_of_poisoned hpoison))

theorem bind_checkPoison {α : Type} {k : Unit → RecordM α} (hpoison : r.session.poisoned = false) :
    (quietly Session.checkPoison >>= k) r = k () r :=
  Step.bind_of_ok (quietly_of_ok (Session.checkPoison_of_sound hpoison))

theorem read_of_currentHeader (hpoison : r.session.poisoned = false)
    (hcurrent : currentHeader S p r = .ok (some h) r') : read S p r = readBehind S h p r' :=
  (bind_checkPoison hpoison).trans (Step.bind_of_ok hcurrent)

theorem read_of_pending (hpoison : r.session.poisoned = false) (hpending : r.session.pendingHeader = some h) :
    read S p r = readBehind S h p r := by
  refine read_of_currentHeader hpoison ((Step.bind_of_ok (quietly_of_ok rfl)).trans ?_)
  rw [hpending]
  rfl

theorem currentHeader_of_none (hpending : r.session.pendingHeader = none) (hlong : sealedHeaderLength ≤ p.length) :
    currentHeader S p r = (openHeader S (p.take sealedHeaderLength) >>= fun h => do
      quietly (modify fun s => { s with pendingHeader := some h })
      return some h) r := by
  refine (Step.bind_of_ok (quietly_of_ok rfl)).trans ?_
  rw [hpending]
  exact congrFun (if_neg (Nat.not_lt.2 hlong)) r

theorem read_of_short (hpoison : r.session.poisoned = false) (hpending : r.session.pendingHeader = none)
    (hshort : p.length < sealedHeaderLength) :
    read S p r = .ok (.incomplete (sealedHeaderLength - p.length)) r := by
  have hcurrent : currentHeader S p r = .ok none r := by
    refine (Step.bind_of_ok (quietly_of_ok rfl)).trans ?_
    rw [hpending]
    exact congrFun (if_pos hshort) r
  exact (bind_checkPoison hpoison).trans (Step.bind_of_ok hcurrent)

/-- What a call of `read` opens of a byte string, and how it goes on from what has been opened of it. -/
inductive Reads (r : Recorded) (p : Bytes) : EStateM.Result Fault Recorded ReadStep → Prop where
  /-- It opens nothing, or the header, which it keeps. -/
  | incomplete {needed : Nat} {taken : Bytes} {r' : Recorded} (opened : r.Opened taken r')
    (along : r.session.seen p ++ taken = r'.session.seen p)
    (long : r'.session.pendingHeader.isSome = true →
      r.session.pendingHeader.isSome = true ∨ sealedHeaderLength ≤ p.length) :
    Reads r p (.ok (.incomplete needed) r')
  /-- It opens the rest of the frame. -/
  | frame {f : Frame} {consumed : Nat} {taken : Bytes} {r' : Recorded} (opened : r.Opened taken r')
    (along : r.session.seen p ++ taken = p.take consumed) : Reads r p (.ok (.frame f consumed) r')
  /-- It opens some of it, and fails. -/
  | error {e : Fault} {taken : Bytes} {r' : Recorded} (opened : r.Opened taken r')
    (along : r.session.seen p ++ taken <+: p) : Reads r p (.error e r')

/-- Behind a header that is kept. -/
theorem readBehind_reads (hpending : r.session.pendingHeader = some h) : Reads r p (readBehind S h p r) := by
  have hseen := Session.seen_of_some hpending p
  have hsize := Session.sealedHeaderLength_le_frameSize h
  rw [readBehind]
  rcases Nat.lt_or_ge p.length (Session.frameSize h) with hshort | hlong
  · rw [if_pos hshort]
    exact .incomplete (.of_received_eq rfl) (List.append_nil _) fun hsome => .inl hsome
  · rw [if_neg (Nat.not_lt.2 hlong)]
    have hlength : ((p.drop sealedHeaderLength).take (Session.frameSize h - sealedHeaderLength)).length
        = Session.frameSize h - sealedHeaderLength := by
      rw [List.length_take, List.length_drop]
      omega
    have htake : r.session.seen p ++ (p.drop sealedHeaderLength).take (Session.frameSize h - sealedHeaderLength)
        = p.take (Session.frameSize h) := by
      rw [hseen, ← List.take_add, Nat.add_sub_cancel' hsize]
    -- To drop the header is no step of its own: nothing is opened by it.
    have htakes := (Takes.quietly (modify fun s => { s with pendingHeader := none })).bind fun _ =>
      (takes_openPayload (S := S) hlength).bind_quiet fun f => .pure (ReadStep.frame f (Session.frameSize h))
    rw [List.nil_append] at htakes
    cases hread : (do
        quietly (modify fun s => { s with pendingHeader := none })
        let f ← openPayload S h ((p.drop sealedHeaderLength).take (Session.frameSize h - sealedHeaderLength))
        return .frame f (Session.frameSize h) : RecordM ReadStep) r with
    | ok step r' =>
      obtain ⟨_, _, -, hrest⟩ := Step.bind_eq_ok_iff.1 hread
      obtain ⟨f, _, -, hret⟩ := Step.bind_eq_ok_iff.1 hrest
      obtain rfl : ReadStep.frame f (Session.frameSize h) = step := (EStateM.Result.ok.inj hret).1
      exact .frame (htakes.ok hread) htake
    | error e r' =>
      obtain ⟨taken, htaken, hopened⟩ := htakes.error hread
      refine .error hopened (List.IsPrefix.trans ?_ (List.take_prefix (Session.frameSize h) p))
      rw [← htake]
      exact (List.prefix_append_right_inj _).2 htaken

/-- What is opened behind a header that has just been opened is opened behind it. -/
theorem Reads.behind_header {res : EStateM.Result Fault Recorded ReadStep} (hopened : r.Opened (r'.session.seen p) r')
    (hseen : r.session.seen p = []) (hlong : sealedHeaderLength ≤ p.length) (h : Reads r' p res) : Reads r p res := by
  cases h with
  | incomplete opened along long =>
    refine .incomplete (hopened.trans opened) ?_ fun _ => .inr hlong
    rwa [hseen]
  | frame opened along =>
    refine .frame (hopened.trans opened) ?_
    rwa [hseen]
  | error opened along =>
    refine .error (hopened.trans opened) ?_
    rwa [hseen]

/-- At the start of a frame. -/
theorem read_reads_of_none (hpoison : r.session.poisoned = false) (hpending : r.session.pendingHeader = none)
    (hlong : sealedHeaderLength ≤ p.length) : Reads r p (read S p r) := by
  have hseen := Session.seen_of_none hpending p
  have hne : p.take sealedHeaderLength ≠ [] := by
    intro hnil
    have hlength := congrArg List.length hnil
    rw [List.length_take_of_le hlong] at hlength
    exact absurd hlength (by decide)
  have hcurrent := currentHeader_of_none (S := S) hpending hlong
  cases hopen : openHeader S (p.take sealedHeaderLength) r with
  | error e r₁ =>
    have hread : read S p r = .error e r₁ :=
      (bind_checkPoison hpoison).trans (Step.bind_of_error (hcurrent.trans (Step.bind_of_error hopen)))
    obtain ⟨taken, htaken, hopened⟩ := (takes_openHeader hne).error hopen
    rw [hread]
    refine .error hopened ?_
    rw [hseen]
    exact htaken.trans (List.take_prefix _ _)
  | ok h r₁ =>
    have hopened := (takes_openHeader hne).ok hopen
    rw [read_of_currentHeader hpoison (hcurrent.trans (Step.bind_of_ok hopen))]
    refine Reads.behind_header ?_ hseen hlong (readBehind_reads rfl)
    rw [Session.seen_of_some rfl]
    exact hopened

/-- **What a call of `read` opens lies behind what has been opened**, in whatever state and whatever bytes it
is given. -/
theorem read_reads (r : Recorded) (p : Bytes) : Reads r p (read S p r) := by
  cases hpoison : r.session.poisoned with
  | true =>
    rw [read_of_poisoned hpoison]
    refine .error (.of_received_eq rfl) ?_
    rw [List.append_nil]
    exact r.session.seen_isPrefix p
  | false =>
    cases hpending : r.session.pendingHeader with
    | some h =>
      rw [read_of_pending hpoison hpending]
      exact readBehind_reads hpending
    | none =>
      rcases Nat.lt_or_ge p.length sealedHeaderLength with hshort | hlong
      · rw [read_of_short hpoison hpending hshort]
        exact .incomplete (.of_received_eq rfl) (List.append_nil _) fun hsome => .inl hsome
      · exact read_reads_of_none hpoison hpending hlong

/-! ### Runs of calls of `read` -/

/-- A session for which no nonce is left opens nothing. -/
theorem invariant_exhausted (S : Suite) (received : List Passage) :
    Invariant S fun r => r.session.receiving.room = 0 ∧ r.received = received where
  still {r s} h hstill := by
    obtain ⟨-, hreceiving, -⟩ := hstill
    rw [hreceiving]
    exact h
  seals _ h _ := h
  opens h hroom _ := absurd h.1 (Nat.ne_of_gt hroom)

/-- Nor does any other that is closed. -/
theorem received_of_closed (hclosed : r.session.Closed) (p : Bytes) :
    (after (read S p r)).received = r.received := by
  rcases hclosed.shut with hpoison | hroom
  · rw [read_of_poisoned hpoison]
    rfl
  · exact ((read_keeps (invariant_exhausted S r.received) p).keeps r ⟨hroom, rfl⟩).2

theorem session_after_read (r : Recorded) (p : Bytes) :
    (after (read S p r)).session = after (Session.read S p r.session) :=
  (read_keeps (invariant_true S) p).session_after r

/-- How far some calls of `read` have come that gave no frame, when they were given bytes up to these. -/
inductive Reaches (r₀ : Recorded) (p : Bytes) (r : Recorded) : Prop where
  /-- They wait for more, and have opened the header at most. -/
  | waiting (opened : r₀.Opened (r.session.seen p) r)
    (long : r.session.pendingHeader.isSome = true → sealedHeaderLength ≤ p.length) (coherent : r.session.Coherent)
  /-- They have failed, and have opened some of the bytes. -/
  | failed {taken : Bytes} (opened : r₀.Opened taken r) (along : taken <+: p) (closed : r.session.Closed)

variable {r₀ : Recorded}

/-- At the start. -/
theorem reaches_start (hpending : r.session.pendingHeader = none) : Reaches r [] r := by
  refine .waiting ?_ (fun hsome => ?_) (.of_none hpending)
  · rw [Session.seen_of_none hpending]
    exact .of_received_eq rfl
  · rw [hpending] at hsome
    cases hsome

/-- **One more call**, which is given the same bytes or more. What has been opened is part of them, and all of
the frame if it gives one; and if it gives none, so it goes on. -/
theorem Reaches.read (hS : S.Exact) (h : Reaches r₀ p r) (hgrow : p <+: q) :
    (∃ taken, r₀.Opened taken (after (Recorded.read S q r)) ∧ taken <+: q ∧ ∀ f n s',
      Session.read S q r.session = .ok (.frame f n) s' → taken = q.take n) ∧
    ((∀ f n s', Session.read S q r.session ≠ .ok (.frame f n) s') →
      Reaches r₀ q (after (Recorded.read S q r))) := by
  have herase := (read_keeps (invariant_true S) q).erase_eq r
  cases h with
  | failed opened along closed =>
    have hopened := opened.trans (.of_received_eq (received_of_closed (S := S) closed q))
    rw [List.append_nil] at hopened
    have hclosed : (after (Recorded.read S q r)).session.Closed := by
      have hact := closed.act hS (.call (.read q))
      rwa [Session.act, Session.call, after_map, ← session_after_read] at hact
    refine ⟨⟨_, hopened, along.trans hgrow, fun f n s' hread => ?_⟩,
      fun _ => .failed hopened (along.trans hgrow) hclosed⟩
    obtain ⟨⟨_, hstep⟩, -⟩ := closed.read_eq_ok hread
    cases hstep
  | waiting opened long coherent =>
    rw [← Session.seen_eq_of_isPrefix hgrow long] at opened
    have hreads := read_reads (S := S) r q
    cases hread : Recorded.read S q r with
    | error e r' =>
      rw [hread] at hreads herase
      cases hreads with
      | error hopened along =>
        have hclosed := (Session.read_eq_error hS coherent herase.symm).closed
        refine ⟨⟨_, opened.trans hopened, along, fun f n s' hok => ?_⟩,
          fun _ => .failed (opened.trans hopened) along hclosed⟩
        cases herase.trans hok
    | ok step r' =>
      rw [hread] at hreads herase
      cases hreads with
      | incomplete hopened along hlong =>
        have hsofar := opened.trans hopened
        rw [along] at hsofar
        refine ⟨⟨_, hsofar, r'.session.seen_isPrefix q, fun f n s' hok => ?_⟩,
          fun _ => .waiting hsofar (fun hsome => ?_) (coherent.of_read herase.symm)⟩
        · cases herase.trans hok
        · rcases hlong hsome with hbefore | hlong
          · exact Nat.le_trans (long hbefore) hgrow.length_le
          · exact hlong
      | frame hopened along =>
        refine ⟨⟨_, opened.trans hopened, ?_, fun f n s' hok => ?_⟩, fun hno => absurd herase.symm (hno _ _ _)⟩
        · rw [along]
          exact List.take_prefix _ _
        · cases herase.trans hok
          exact along

/-- Calls of `read` with byte strings that grow, as long as none gives a frame. -/
theorem Reaches.run (hS : S.Exact) {last : Bytes} {parts : List Bytes} (h : Reaches r₀ p r) 
    (hgrow : (p :: (parts ++ [last])).Pairwise (· <+: ·)) (hnone : Session.NoneGivesFrame S r.session parts) :
    ∃ q, q <+: last ∧ Reaches r₀ q (r.run S (parts.map .read)) := by
  induction parts generalizing r p with
  | nil =>
    obtain ⟨hp, -⟩ := List.pairwise_cons.1 hgrow
    exact ⟨p, hp last (List.mem_singleton.2 rfl), h⟩
  | cons q parts ih =>
    obtain ⟨hp, hgrow⟩ := List.pairwise_cons.1 hgrow
    obtain ⟨hq, hnone⟩ := hnone
    have hreaches := (h.read hS (hp q (List.mem_cons.2 (.inl rfl)))).2 hq
    rw [← session_after_read] at hnone
    obtain ⟨q', hq', hrun⟩ := ih hreaches hgrow hnone
    refine ⟨q', hq', ?_⟩
    rw [List.map_cons, run, List.foldl_cons, call, after_map]
    exact hrun

/-- **No byte is opened twice.** -/
theorem run_read_opened (hS : S.Exact) {last : Bytes} {parts : List Bytes} (hpending : r.session.pendingHeader = none)
    (hgrow : (parts ++ [last]).Pairwise (· <+: ·)) (hnone : Session.NoneGivesFrame S r.session parts) :
    ∃ taken, r.Opened taken (r.run S ((parts ++ [last]).map .read)) ∧ taken <+: last ∧ ∀ f n s',
      Session.read S last (r.session.run S (parts.map .read)) = .ok (.frame f n) s' → taken = last.take n := by
  have hall : ([] :: (parts ++ [last])).Pairwise (· <+: ·) :=
    List.pairwise_cons.2 ⟨fun _ _ => List.nil_prefix, hgrow⟩
  obtain ⟨q, hq, hreaches⟩ := (reaches_start hpending).run hS hall hnone
  obtain ⟨⟨taken, hopened, htaken, hframe⟩, -⟩ := hreaches.read hS hq
  rw [run_session] at hframe
  refine ⟨taken, ?_, htaken, hframe⟩
  rw [List.map_append, run, List.foldl_append, List.map_singleton, List.foldl_cons, List.foldl_nil, call, after_map]
  exact hopened

end Recorded

namespace Session

variable {S : Suite} {s : Session}

/-- **Reading agrees with decrypting.** For every session that is not in the middle of a frame: decrypting a
byte string gives a frame if and only if reading it gives the frame and takes all its bytes, and both leave
the same session. In that case reading gives the same on more bytes; and if it is given parts of the byte string
that grow, it asks for what is lacking of each, which is one byte at least, and gives the same in the end. And
a run of calls with byte strings that grow, of which none but the last gives a frame, opens consecutive
bytes, each of them once: if the last one gives a frame, those that the frame takes. With the bytes behind
the frame another such run begins. -/
theorem read_agrees_with_decrypt (hS : S.Exact) (hpending : s.pendingHeader = none) :
    (∀ (d : Bytes) (f : Frame) (s' : Session),
      (decrypt S d s = .ok f s' ↔ read S d s = .ok (.frame f d.length) s') ∧
      (decrypt S d s = .ok f s' → ∀ more : Bytes,
        read S (d ++ more) s = .ok (.frame f d.length) s' ∧
        ∀ parts : List Bytes, (∀ p ∈ parts, p <+: d ∧ p ≠ d) → parts.Pairwise (fun p q => p.length ≤ q.length) →
          (∀ p ∈ parts, 1 ≤ lacking d p) ∧
          (parts ++ [d ++ more]).mapM (read S) s
            = .ok (parts.map (fun p => .incomplete (lacking d p)) ++ [.frame f d.length]) s')) ∧
    ∀ r : Recorded, r.session = s → ∀ (parts : List Bytes) (last : Bytes), (parts ++ [last]).Pairwise (· <+: ·) →
      NoneGivesFrame S s parts →
        ∃ taken, r.Opened taken (r.run S ((parts ++ [last]).map .read)) ∧ taken <+: last ∧
          ∀ f n s', read S last (s.run S (parts.map .read)) = .ok (.frame f n) s' → taken = last.take n := by
  refine ⟨fun d f s' => ⟨decrypt_iff_read hpending, fun hdecrypt more => ?_⟩, fun r hr parts last hgrow hnone => ?_⟩
  · obtain ⟨h, s₁, o, hpayload⟩ := exists_opening_of_decrypt hdecrypt
    refine ⟨o.read_whole hpayload more, fun parts hparts hgrow => ⟨fun p hp => ?_, ?_⟩⟩
    · obtain ⟨hpart, hne⟩ := hparts p hp
      exact lacking_pos (length_lt_of_ne hpart hne)
    · exact o.mapM_read hpayload more hparts hgrow
  · subst hr
    exact Recorded.run_read_opened hS hpending hgrow hnone

open Sample in
/-- A frame of 41 bytes on the suite of the protocol: of one byte and of 22 bytes the receiver says what is
lacking, and of all of them it gives the frame; and every byte is opened once. -/
theorem read_agrees_with_decrypt_on_sample :
    ∃ (d : Bytes) (s' : Session), d.length = 41 ∧ receiver.pendingHeader = none ∧
      decrypt Suite.standard d receiver = .ok frame s' ∧ read Suite.standard d receiver = .ok (.frame frame 41) s' ∧
      [d.take 1, d.take 22, d].mapM (read Suite.standard) receiver
        = .ok [.incomplete 21, .incomplete 19, .frame frame 41] s' ∧
      Recorded.Opened ⟨receiver, [], []⟩ d
        (Recorded.run Suite.standard ⟨receiver, [], []⟩ [.read (d.take 1), .read (d.take 22), .read d]) := by
  have hS := Suite.standard_exact.toSealing
  obtain ⟨d, s', hlength, hdecrypt⟩ : ∃ d s', d.length = 41 ∧ decrypt Suite.standard d receiver = .ok frame s' := by
    refine ⟨_, _, ?_, decrypt_sealedFrame hS rfl rfl (by decide) ?_⟩
    · rw [Direction.length_sealedFrame hS, frameSize_eq]
      decide
    · rw [Frame.length_pieces]
      decide
  have hlacking (n : Nat) (hn : n ≤ 41) :
      lacking d (d.take n) = if n < sealedHeaderLength then sealedHeaderLength - n else 41 - n := by
    rw [lacking, List.length_take_of_le (by omega), hlength]
  have hpart (n : Nat) (hn : n < 41) : d.take n <+: d ∧ d.take n ≠ d := by
    refine ⟨List.take_prefix n d, fun heq => ?_⟩
    have hsame := congrArg List.length heq
    rw [List.length_take_of_le (by omega)] at hsame
    omega
  obtain ⟨hone, hrun⟩ := read_agrees_with_decrypt Suite.standard_exact (s := receiver) rfl
  obtain ⟨hiff, hmore⟩ := hone d frame s'
  obtain ⟨-, hparts⟩ := hmore hdecrypt []
  obtain ⟨-, hmap⟩ := hparts [d.take 1, d.take 22] (by simp [hpart]) (by simp [hlength])
  have hread := hiff.1 hdecrypt
  rw [List.map_cons, List.map_singleton, hlacking 1 (by decide), hlacking 22 (by decide), List.append_nil] at hmap
  rw [hlength] at hread hmap
  refine ⟨d, s', hlength, rfl, hdecrypt, hread, hmap, ?_⟩
  -- The first two calls give no frame, so that the run goes on to the third, which gives it.
  obtain ⟨s₁, s₂, hfirst, hsecond, hthird⟩ : ∃ s₁ s₂,
      read Suite.standard (d.take 1) receiver = .ok (.incomplete 21) s₁ ∧
        read Suite.standard (d.take 22) s₁ = .ok (.incomplete 19) s₂ ∧
        read Suite.standard d s₂ = .ok (.frame frame 41) s' := by
    obtain ⟨s₁, hfirst, hmap⟩ := Step.mapM_cons_eq_ok_iff.1 hmap
    obtain ⟨s₂, hsecond, hmap⟩ := Step.mapM_cons_eq_ok_iff.1 hmap
    obtain ⟨s₃, hthird, hend⟩ := Step.mapM_cons_eq_ok_iff.1 hmap
    cases hend
    exact ⟨s₁, s₂, hfirst, hsecond, hthird⟩
  have hnone : NoneGivesFrame Suite.standard receiver [d.take 1, d.take 22] := by
    refine ⟨fun f n t h => ?_, ?_⟩
    · cases hfirst.symm.trans h
    · rw [hfirst]
      refine ⟨fun f n t h => ?_, trivial⟩
      cases hsecond.symm.trans h
  have hgrow : ([d.take 1, d.take 22] ++ [d]).Pairwise (· <+: ·) := by
    have hshorter : d.take 1 <+: d.take 22 := List.take_prefix_take_left (by decide)
    simp [List.take_prefix, hshorter]
  have hreached : receiver.run Suite.standard [.read (d.take 1), .read (d.take 22)] = s₂ := by
    rw [run, List.foldl_cons, call, RecordM.after_map, hfirst]
    exact (RecordM.after_map _ _ _).trans (congrArg RecordM.after hsecond)
  obtain ⟨taken, hopened, -, hframe⟩ := hrun ⟨receiver, [], []⟩ rfl [d.take 1, d.take 22] d hgrow hnone
  obtain rfl : taken = d := by
    rw [hframe frame 41 s' (by rw [← hthird, ← hreached]; rfl), List.take_of_length_le (Nat.le_of_eq hlength)]
  exact hopened

end Session

end Stratum
