import Mathlib.Data.List.Infix
import Stratum.Conversation
import Stratum.Proofs.Reception

/-!
# Conversations that come to their end

A client and a server exchange bytes by a plan: each awaits what the other is to send, and
answers it. The network delivers as it likes. This module shows that the plan is carried
out, and that there is no way for it not to be.

* `Exchange` is one entry of a plan, and `Follows` says that the turns of a program go
  along a plan: while bytes are missing a turn waits, and leaves everything as it was.
* `takeTurns_follows`: from any bytes of the plan, a program that takes turn after turn
  comes as far as they allow.
* `Plays` is the invariant of a running program. **`Plays.receive`**: whatever arrives
  next, in whatever pieces, keeps it.
* `Matches` says that two plans fit: what one side sends is what the other awaits.
* **`Conversation.completes`**: then every run of the conversation is finite, with a bound
  that does not depend on the run, and one that cannot go on is complete: the client has
  finished, the server has learnt so, and each has sent what it was to send.

So neither side can be left waiting for the other. The reason is a count of bytes
(`Matches.settled`): when nothing is on its way, the sides have come equally far, and
one of them has what it awaits.
-/

namespace Stratum

/-! ### Plans -/

/-- Bytes that a program awaits, and those that it sends when they are there. -/
structure Exchange where
  /-- The bytes awaited. -/
  awaited : Bytes
  /-- The bytes sent. -/
  reply : Bytes

namespace Exchange

/-- Everything that is awaited. -/
def stream (plan : List Exchange) : Bytes := plan.flatMap awaited

/-- Everything that is sent. -/
def replies (plan : List Exchange) : Bytes := plan.flatMap reply

/-- Bytes that are too few for the first of some exchanges. -/
def TooFew : List Exchange → Bytes → Prop
  | [], part => part = []
  | e :: _, part => part <+: e.awaited ∧ part.length < e.awaited.length

@[simp] theorem stream_nil : stream [] = [] := rfl

@[simp] theorem stream_cons (e : Exchange) (plan : List Exchange) :
    stream (e :: plan) = e.awaited ++ stream plan := rfl

@[simp] theorem stream_append (plan plan' : List Exchange) :
    stream (plan ++ plan') = stream plan ++ stream plan' := List.flatMap_append

@[simp] theorem replies_nil : replies [] = [] := rfl

@[simp] theorem replies_cons (e : Exchange) (plan : List Exchange) :
    replies (e :: plan) = e.reply ++ replies plan := rfl

@[simp] theorem replies_append (plan plan' : List Exchange) :
    replies (plan ++ plan') = replies plan ++ replies plan' := List.flatMap_append

/-- They are bytes of these exchanges. -/
theorem TooFew.isPrefix {plan : List Exchange} {part : Bytes} (h : TooFew plan part) : part <+: stream plan := by
  cases plan with
  | nil =>
    rw [show part = [] from h]
    exact List.nil_prefix
  | cons e plan => exact h.1.trans (List.prefix_append _ _)

/-- Bytes of a plan are too few for its first exchange, or begin with what that awaits. -/
theorem tooFew_or {e : Exchange} {plan : List Exchange} {bytes : Bytes} (h : bytes <+: stream (e :: plan)) :
    TooFew (e :: plan) bytes ∨ ∃ more, bytes = e.awaited ++ more ∧ more <+: stream plan := by
  rw [stream_cons] at h
  by_cases hshort : bytes.length < e.awaited.length
  · exact .inl ⟨List.prefix_of_prefix_length_le h (List.prefix_append _ _) (Nat.le_of_lt hshort), hshort⟩
  · right
    obtain ⟨more, rfl⟩ := List.prefix_of_prefix_length_le (List.prefix_append _ _) h (Nat.le_of_not_lt hshort)
    exact ⟨more, rfl, (List.prefix_append_right_inj _).1 h⟩

end Exchange

open Exchange

/-- Two plans fit each other: the server awaits what the client has sent to begin with, the client awaits
the answer, and so on with what the client answers, until there is no more. -/
inductive Matches : (opening : Bytes) → (client server : List Exchange) → Prop where
  /-- Nothing is left to be sent. -/
  | nil : Matches [] [] []
  /-- The client awaits what the server answers. -/
  | round {opening answer next : Bytes} {client server : List Exchange} (rest : Matches next client server) :
    Matches opening (⟨answer, next⟩ :: client) (⟨opening, answer⟩ :: server)

namespace Matches

variable {opening : Bytes} {client server : List Exchange}

theorem stream_client (h : Matches opening client server) : stream client = replies server := by
  induction h with
  | nil => rfl
  | round _ ih => rw [stream_cons, replies_cons, ih]

theorem stream_server (h : Matches opening client server) : stream server = opening ++ replies client := by
  induction h with
  | nil => rfl
  | round _ ih => rw [stream_cons, replies_cons, ih]

/-- **Nobody is left waiting.** If everything that was sent has arrived, both sides have come to the end
of their plans. -/
theorem settled {doneC restC doneS restS : List Exchange} {partC partS : Bytes}
    (h : Matches opening (doneC ++ restC) (doneS ++ restS)) (hclient : TooFew restC partC)
    (hserver : TooFew restS partS)
    (harrivedC : (stream doneC).length + partC.length = (replies doneS).length)
    (harrivedS : (stream doneS).length + partS.length = opening.length + (replies doneC).length) :
    restC = [] ∧ restS = [] := by
  -- Both have come through as many rounds: one that is behind has what it awaits.
  generalize hplanC : doneC ++ restC = planC at h
  generalize hplanS : doneS ++ restS = planS at h
  induction h generalizing doneC doneS with
  | nil => exact ⟨(List.append_eq_nil_iff.1 hplanC).2, (List.append_eq_nil_iff.1 hplanS).2⟩
  | @round opening answer next client server rest ih =>
    cases doneS with
    | nil =>
      obtain rfl : restS = _ := hplanS
      have hshort : partS.length < opening.length := hserver.2
      rw [stream_nil, List.length_nil] at harrivedS
      omega
    | cons e doneS =>
      obtain ⟨rfl, htailS⟩ := List.cons.inj hplanS
      cases doneC with
      | nil =>
        obtain rfl : restC = _ := hplanC
        have hshort : partC.length < answer.length := hclient.2
        simp only [stream_nil, List.length_nil, replies_cons, List.length_append] at harrivedC
        omega
      | cons e doneC =>
        obtain ⟨rfl, htailC⟩ := List.cons.inj hplanC
        simp only [stream_cons, replies_cons, List.length_append] at harrivedC harrivedS
        exact ih (by omega) (by omega) htailC htailS

end Matches

/-! ### Turns along a plan -/

/-- A transport that can receive and send, with the bytes that are to be received next and all that were
sent. -/
structure Transport.Live (t : Transport) (unread sent : Bytes) : Prop where
  /-- This end is open. -/
  isOpen : t.isOpen = true
  /-- More may arrive. -/
  inputEnded : t.inputEnded = false
  /-- The peer takes bytes. -/
  outputBroken : t.outputBroken = false
  /-- The bytes to be received. -/
  bytes : t.unreadBytes = unread
  /-- The bytes sent. -/
  outgoing : t.outgoing = sent

theorem Transport.Live.of_kept {t t' : Transport} {unread unread' sent : Bytes} (h : t.Live unread sent)
    (kept : t.KeepsSending t') (bytes : t'.unreadBytes = unread') : t'.Live unread' sent := by
  obtain ⟨⟨_, _, _, rfl⟩, -⟩ := kept
  exact ⟨h.isOpen, h.inputEnded, h.outputBroken, bytes, h.outgoing⟩

/-- More bytes come behind those that are there. -/
theorem Transport.Live.arriveInPieces {t : Transport} {unread sent : Bytes} (h : t.Live unread sent)
    (pieces : List Bytes) : (t.arriveInPieces pieces).Live (unread ++ pieces.flatten) sent := by
  refine ⟨h.isOpen, h.inputEnded, h.outputBroken, ?_, h.outgoing⟩
  rw [← h.bytes, unreadBytes, Transport.arriveInPieces, List.flatten_append, ← List.append_assoc]
  rfl

/-- A stage of a program: states that have something in common other than their end of the connection. -/
structure Program.Stage {σ : Type} (p : Program σ) where
  /-- What they have in common. -/
  holds : σ → Prop
  /-- Their end of the connection plays no part. -/
  withTransport : ∀ s t, holds s → holds (p.withTransport s t)

/-- A program that takes turns as long as bytes and exchanges of a plan of length `n` can last. -/
structure Program.TakesTurns {σ : Type} (p : Program σ) (turn : EStateM Fault σ Bool) (n : Nat) : Prop where
  /-- It has the end of the connection that it is given. -/
  transport_withTransport : ∀ s t, p.transport (p.withTransport s t) = t
  /-- It runs by taking turns. -/
  run_eq : ∀ s, ∃ fuel, min n (p.transport s).unread < fuel ∧ p.run s = takeTurns turn fuel s

section Turns

variable {σ : Type} (p : Program σ) (turn : EStateM Fault σ Bool)

/-- A turn waits, and all stays as it was. -/
def Waits (I : p.Stage) (part : Bytes) : Prop :=
  ∀ ⦃s sent⦄, I.holds s → (p.transport s).Live part sent →
    ∃ s', turn s = .error (.transport .receiveFailed) s' ∧ I.holds s' ∧ (p.transport s').Live part sent

/-- Turns that make an exchange: they wait for its bytes, and when these are there one sends the reply and
leads to another stage. -/
structure Takes (I : p.Stage) (e : Exchange) (J : p.Stage) : Prop where
  /-- Something is awaited. -/
  some : e.awaited ≠ []
  /-- As long as bytes are missing, nothing happens. -/
  waits : ∀ part, part <+: e.awaited → part.length < e.awaited.length → Waits p turn I part
  /-- When they are there, they are taken and answered. -/
  answers : ∀ ⦃s more sent⦄, I.holds s → (p.transport s).Live (e.awaited ++ more) sent →
    ∃ s', turn s = .ok true s' ∧ J.holds s' ∧ (p.transport s').Live more (sent ++ e.reply)

/-- Turns that end the program: they wait for bytes, and when these are there the program is done. -/
structure Finishes (I : p.Stage) (awaited : Bytes) : Prop where
  /-- As long as bytes are missing, nothing happens. -/
  waits : ∀ part, part <+: awaited → part.length < awaited.length → Waits p turn I part
  /-- When they are there, it ends. -/
  ends : ∀ ⦃s more sent⦄, I.holds s → (p.transport s).Live (awaited ++ more) sent →
    ∃ s', turn s = .ok false s' ∧ (p.transport s').outgoing = sent

/-- Turns of a program that awaits nothing in particular: it waits until the peer hangs up. -/
structure Idles (I : p.Stage) : Prop where
  /-- As long as nothing arrives, nothing happens. -/
  waits : Waits p turn I []
  /-- When nothing arrives any more, it stops. -/
  stops : ∀ ⦃s⦄, I.holds s → (p.transport s).isOpen = true → (p.transport s).inputEnded = true →
    (p.transport s).unreadBytes = [] →
      ∃ s', turn s = .error (.transport .peerClosed) s' ∧ (p.transport s).KeepsSending (p.transport s')

/-- The turns of a program go along a plan. Behind it the program is done, or it idles. -/
inductive Follows : (leaves : Bool) → (plan : List Exchange) → p.Stage → Prop where
  /-- Nothing is left of the plan. -/
  | idle {I : p.Stage} (idles : Idles p turn I) : Follows false [] I
  /-- The last bytes are awaited, and nothing is left to say. -/
  | last {I : p.Stage} {awaited : Bytes} (finishes : Finishes p turn I awaited) :
    Follows true [⟨awaited, []⟩] I
  /-- There is an exchange, and more behind it. -/
  | next {leaves : Bool} {e : Exchange} {plan : List Exchange} {I J : p.Stage} (takes : Takes p turn I e J)
    (rest : Follows leaves plan J) : Follows leaves (e :: plan) I

variable {p turn} {leaves : Bool} {plan : List Exchange} {I : p.Stage}

/-- Whoever leaves still has something to do before. -/
theorem Follows.ne_nil (h : Follows p turn true plan I) : plan ≠ [] := by
  cases h with
  | last => exact List.cons_ne_nil _ _
  | next => exact List.cons_ne_nil _ _

/-- How far a program comes that goes along a plan, has sent `sent`, and has bytes of the plan. -/
inductive Comes (p : Program σ) (turn : EStateM Fault σ Bool) (leaves : Bool) (plan : List Exchange)
    (bytes sent : Bytes) : Progress × σ → Prop where
  /-- It waits for the rest of an exchange. -/
  | waits {done rest : List Exchange} {part : Bytes} {I : p.Stage} {s : σ} (split : plan = done ++ rest)
    (follows : Follows p turn leaves rest I) (holds : I.holds s)
    (live : (p.transport s).Live part (sent ++ replies done)) (few : TooFew rest part)
    (took : bytes = stream done ++ part) : Comes p turn leaves plan bytes sent (.waiting, s)
  /-- It is done. -/
  | done {s : σ} (left : leaves = true) (outgoing : (p.transport s).outgoing = sent ++ replies plan)
    (took : bytes = stream plan) : Comes p turn leaves plan bytes sent (.finished, s)

/-- What comes of the rest of a plan comes of the plan, once its first exchange is made. -/
theorem Comes.cons {e : Exchange} {bytes sent : Bytes} {r : Progress × σ}
    (h : Comes p turn leaves plan bytes (sent ++ e.reply) r) :
    Comes p turn leaves (e :: plan) (e.awaited ++ bytes) sent r := by
  cases h with
  | @waits done rest part I s split follows holds live few took =>
    refine .waits (show e :: plan = (e :: done) ++ rest by rw [split, List.cons_append]) follows holds ?_ few ?_
    · rw [replies_cons, ← List.append_assoc]
      exact live
    · rw [stream_cons, took, List.append_assoc]
  | done left outgoing took =>
    refine .done left ?_ ?_
    · rw [outgoing, replies_cons, List.append_assoc]
    · rw [stream_cons, took]

/-- **Turn after turn a program goes along its plan**, as far as the bytes that are there allow. -/
theorem takeTurns_follows {fuel : Nat} {s : σ} {bytes sent : Bytes} (h : Follows p turn leaves plan I)
    (holds : I.holds s) (live : (p.transport s).Live bytes sent) (hbytes : bytes <+: stream plan)
    (hfuel : min plan.length bytes.length < fuel) :
    Comes p turn leaves plan bytes sent (takeTurns turn fuel s) := by
  -- Every exchange takes a byte, so that there is a turn for each that the bytes allow.
  induction h generalizing s bytes sent fuel with
  | @idle I idles =>
    obtain rfl : bytes = [] := List.prefix_nil.1 hbytes
    obtain ⟨fuel, rfl⟩ := Nat.exists_eq_add_one_of_ne_zero (Nat.ne_zero_of_lt hfuel)
    obtain ⟨s', hturn, holds', live'⟩ := idles.waits holds live
    rw [takeTurns, hturn]
    refine .waits (List.nil_append _).symm (.idle idles) holds' ?_ rfl rfl
    rwa [replies_nil, List.append_nil]
  | @last I awaited finishes =>
    obtain ⟨fuel, rfl⟩ := Nat.exists_eq_add_one_of_ne_zero (Nat.ne_zero_of_lt hfuel)
    obtain hfew | ⟨more, rfl, hmore⟩ := tooFew_or hbytes
    · obtain ⟨s', hturn, holds', live'⟩ := finishes.waits bytes hfew.1 hfew.2 holds live
      rw [takeTurns, hturn]
      refine .waits (List.nil_append _).symm (.last finishes) holds' ?_ hfew rfl
      rwa [replies_nil, List.append_nil]
    · obtain rfl : more = [] := List.prefix_nil.1 hmore
      obtain ⟨s', hturn, outgoing⟩ := finishes.ends holds live
      rw [takeTurns, hturn]
      refine .done rfl ?_ rfl
      rw [outgoing, replies_cons, replies_nil, List.append_nil, List.append_nil]
  | @next leaves e plan I J takes rest ih =>
    obtain ⟨fuel, rfl⟩ := Nat.exists_eq_add_one_of_ne_zero (Nat.ne_zero_of_lt hfuel)
    obtain hfew | ⟨more, rfl, hmore⟩ := tooFew_or hbytes
    · obtain ⟨s', hturn, holds', live'⟩ := takes.waits bytes hfew.1 hfew.2 holds live
      rw [takeTurns, hturn]
      refine .waits (List.nil_append _).symm (.next takes rest) holds' ?_ hfew rfl
      rwa [replies_nil, List.append_nil]
    · obtain ⟨s', hturn, holds', live'⟩ := takes.answers holds live
      rw [takeTurns, hturn]
      have hpos := List.length_pos_iff.2 takes.some
      rw [List.length_cons, List.length_append] at hfuel
      exact (ih holds' live' hmore (by omega)).cons

/-- So does a program that runs, if it takes turns enough. -/
theorem Program.TakesTurns.run_follows {n : Nat} {s : σ} {bytes sent : Bytes} (hp : p.TakesTurns turn n)
    (h : Follows p turn leaves plan I) (hlength : plan.length ≤ n) (holds : I.holds s)
    (live : (p.transport s).Live bytes sent) (hbytes : bytes <+: stream plan) :
    Comes p turn leaves plan bytes sent (p.run s) := by
  obtain ⟨fuel, hfuel, hrun⟩ := hp.run_eq s
  rw [← Transport.length_unreadBytes, live.bytes] at hfuel
  rw [hrun]
  exact takeTurns_follows h holds live hbytes (by omega)

end Turns

/-! ### A running program -/

section Playing

variable {σ : Type} {p : Program σ} {turn : EStateM Fault σ Bool} {leaves : Bool} {opening : Bytes}
  {plan : List Exchange} {r : Runner σ}

namespace Runner

theorem go_of_waiting {progress : Progress} {s : σ} (h : r.progress = .waiting)
    (hrun : p.run r.state = (progress, s)) :
    r.go p = { r with
      state := if progress.hasEnded then p.withTransport s (p.transport s).close else s, progress } := by
  have hgoes : ¬ r.progress.hasEnded = true := by
    rw [h]
    exact Bool.false_ne_true
  rw [go, if_neg hgoes, hrun]

theorem heard_go : (r.go p).heard = r.heard := by
  unfold go
  split
  · rfl
  · rfl

theorem endInput_of_hasEnded (h : r.progress.hasEnded = true) (broken : Bool) :
    r.endInput p broken = { r with state := p.withTransport r.state ((r.transport p).endInput broken) } :=
  if_pos h

end Runner

/-- **A program plays its part**: it has said what it was to say, and is waiting, or has ended. -/
inductive Plays (p : Program σ) (turn : EStateM Fault σ Bool) (leaves : Bool) (opening : Bytes)
    (plan : List Exchange) (r : Runner σ) : Prop where
  /-- It waits for the rest of an exchange, or idles behind its plan. -/
  | talking {done rest : List Exchange} {part : Bytes} {I : p.Stage} (split : plan = done ++ rest)
    (follows : Follows p turn leaves rest I) (holds : I.holds r.state)
    (live : (r.transport p).Live part (opening ++ replies done)) (few : TooFew rest part)
    (heard : r.heard = (stream done).length + part.length) (progress : r.progress = .waiting)
  /-- It has finished, or has stopped because its peer has closed its end. -/
  | ended (progress : r.progress = if leaves then .finished else .stopped (.transport .peerClosed))
    (closed : (r.transport p).isOpen = false)
    (outgoing : (r.transport p).outgoing = opening ++ replies plan) (heard : r.heard = (stream plan).length)

namespace Plays

/-- What has been sent is the beginning of what is to be sent. -/
theorem outgoing_isPrefix (h : Plays p turn leaves opening plan r) :
    (r.transport p).outgoing <+: opening ++ replies plan := by
  cases h with
  | @talking done rest part I split _ _ live =>
    rw [live.outgoing, split, replies_append, ← List.append_assoc]
    exact List.prefix_append _ _
  | ended _ _ outgoing =>
    rw [outgoing]

/-- What has arrived is no more than is to arrive. -/
theorem heard_le (h : Plays p turn leaves opening plan r) : r.heard ≤ (stream plan).length := by
  cases h with
  | @talking done rest part I split _ _ _ few heard =>
    rw [heard, split, stream_append, List.length_append]
    cases rest with
    | nil =>
      obtain rfl : part = [] := few
      exact Nat.le_refl _
    | cons e rest =>
      rw [stream_cons, List.length_append]
      have hshort := few.2
      omega
  | ended _ _ _ heard => exact Nat.le_of_eq heard

/-- Whoever has closed its end has sent everything. -/
theorem outgoing_of_closed (h : Plays p turn leaves opening plan r) (hclosed : (r.transport p).isOpen = false) :
    (r.transport p).outgoing = opening ++ replies plan := by
  cases h with
  | talking _ _ _ live => cases hclosed.symm.trans live.isOpen
  | ended _ _ outgoing => exact outgoing

/-- A program that waits plays its part if it comes as far as its plan allows. -/
theorem of_comes {done rest : List Exchange} {part : Bytes} (hp : p.TakesTurns turn plan.length)
    (split : plan = done ++ rest)
    (hcomes : Comes p turn leaves rest part (opening ++ replies done) (p.run r.state))
    (heard : r.heard = (stream done).length + part.length) (progress : r.progress = .waiting) :
    Plays p turn leaves opening plan (r.go p) ∧
      opening ++ replies done <+: ((r.go p).transport p).outgoing := by
  generalize hx : p.run r.state = x at hcomes
  cases hcomes with
  | @waits done' rest' part' J s split' follows holds live few took =>
    rw [Runner.go_of_waiting progress hx]
    refine ⟨.talking (show plan = (done ++ done') ++ rest' by rw [split, split', List.append_assoc]) follows holds
      ?_ few ?_ rfl, ?_⟩
    · rw [replies_append, ← List.append_assoc]
      exact live
    · rw [stream_append, List.length_append, Nat.add_assoc, ← List.length_append, ← took]
      exact heard
    · exact ⟨_, live.outgoing.symm⟩
  | @done s left outgoing took =>
    have hclose : p.transport (p.withTransport s (p.transport s).close) = (p.transport s).close :=
      hp.transport_withTransport _ _
    rw [Runner.go_of_waiting progress hx]
    refine ⟨.ended ?_ (congrArg Transport.isOpen hclose) ?_ ?_, ?_⟩
    · rw [left]
      rfl
    · rw [split, replies_append, ← List.append_assoc]
      exact (congrArg Transport.outgoing hclose).trans outgoing
    · rw [split, stream_append, List.length_append, ← took]
      exact heard
    · exact ⟨_, outgoing.symm.trans (congrArg Transport.outgoing hclose).symm⟩

/-- A program that has just been connected plays its part if it comes as far as its plan allows. -/
theorem start {s : σ} (hp : p.TakesTurns turn plan.length)
    (hcomes : Comes p turn leaves plan [] opening (p.run s)) :
    Plays p turn leaves opening plan (Runner.go p { state := s }) := by
  have hsent : Comes p turn leaves plan [] (opening ++ replies []) (p.run s) := by
    rwa [replies_nil, List.append_nil]
  exact (of_comes (r := { state := s }) hp (List.nil_append plan).symm hsent rfl rfl).1

/-- **Whatever arrives of the plan, in whatever pieces, the program plays its part.** -/
theorem receive (hp : p.TakesTurns turn plan.length) (h : Plays p turn leaves opening plan r)
    {pieces : List Bytes} (hsome : pieces.flatten ≠ [])
    (hnext : pieces.flatten <+: (stream plan).drop r.heard) :
    Plays p turn leaves opening plan (r.receive p pieces) ∧
      (r.transport p).outgoing <+: ((r.receive p pieces).transport p).outgoing ∧
        (r.transport p).inputEnded = false := by
  cases h with
  | @talking done rest part I split follows holds live few heard progress =>
    have hmore : part ++ pieces.flatten <+: stream rest := by
      -- what has arrived before is what there is of the exchange that is awaited
      obtain ⟨more, hmore⟩ := few.isPrefix
      rw [heard, split, stream_append, ← List.drop_drop, List.drop_left, ← hmore, List.drop_left] at hnext
      rw [← hmore]
      exact (List.prefix_append_right_inj _).2 hnext
    have hlength : rest.length ≤ plan.length := by
      rw [split, List.length_append]
      exact Nat.le_add_left _ _
    have hlive := live.arriveInPieces pieces
    rw [← hp.transport_withTransport r.state ((r.transport p).arriveInPieces pieces)] at hlive
    have hcomes := hp.run_follows follows hlength (I.withTransport _ _ holds) hlive hmore
    obtain ⟨hplays, hsent⟩ := of_comes (r := { r with
        state := p.withTransport r.state ((r.transport p).arriveInPieces pieces)
        heard := r.heard + pieces.flatten.length }) hp split hcomes
      (by rw [List.length_append, ← Nat.add_assoc, ← heard]) progress
    rw [← live.outgoing] at hsent
    exact ⟨hplays, hsent, live.inputEnded⟩
  | ended _ _ _ heard =>
    rw [heard, List.drop_length] at hnext
    exact absurd (List.prefix_nil.1 hnext) hsome

/-- That its peer has closed its end changes nothing for a program that has ended. -/
theorem endInput_of_ended (hp : p.TakesTurns turn plan.length)
    (progress : r.progress = if leaves then .finished else .stopped (.transport .peerClosed))
    (closed : (r.transport p).isOpen = false) (outgoing : (r.transport p).outgoing = opening ++ replies plan)
    (heard : r.heard = (stream plan).length) (broken : Bool) :
    Plays p turn leaves opening plan (r.endInput p broken) ∧
      ((r.endInput p broken).transport p).outgoing = (r.transport p).outgoing ∧
        ((r.endInput p broken).transport p).inputEnded = true := by
  have hended : r.progress.hasEnded = true := by
    rw [progress]
    cases leaves <;> rfl
  rw [Runner.endInput_of_hasEnded hended]
  have htransport : p.transport (p.withTransport r.state ((r.transport p).endInput broken))
      = (r.transport p).endInput broken := hp.transport_withTransport _ _
  have hsent := congrArg Transport.outgoing htransport
  exact ⟨.ended progress ((congrArg Transport.isOpen htransport).trans closed) (hsent.trans outgoing) heard, hsent,
    congrArg Transport.inputEnded htransport⟩

/-- A program that idles behind its plan stops when its peer closes its end. -/
theorem endInput_of_idle {I : p.Stage} (hp : p.TakesTurns turn plan.length) (idles : Idles p turn I)
    (holds : I.holds r.state) (live : (r.transport p).Live [] (opening ++ replies plan))
    (heard : r.heard = (stream plan).length) (progress : r.progress = .waiting) (broken : Bool) :
    Plays p turn false opening plan (r.endInput p broken) ∧
      ((r.endInput p broken).transport p).outgoing = (r.transport p).outgoing ∧
        ((r.endInput p broken).transport p).inputEnded = true := by
  generalize ht : (r.transport p).endInput broken = t
  have htransport : p.transport (p.withTransport r.state t) = t := hp.transport_withTransport _ _
  have hopen : t.isOpen = true := by
    rw [← ht]
    exact live.isOpen
  have hended : t.inputEnded = true := by
    rw [← ht]
    rfl
  have hbytes : t.unreadBytes = [] := by
    rw [← ht]
    exact live.bytes
  have hstops := idles.stops (I.withTransport _ t holds)
  rw [htransport] at hstops
  obtain ⟨s', hturn, ⟨_, _, _, hkept⟩, -⟩ := hstops hopen hended hbytes
  obtain ⟨fuel, hfuel, hrun⟩ := hp.run_eq (p.withTransport r.state t)
  obtain ⟨fuel, rfl⟩ := Nat.exists_eq_add_one_of_ne_zero (Nat.ne_zero_of_lt hfuel)
  have hstop : p.run (p.withTransport r.state t) = (.stopped (.transport .peerClosed), s') := by
    rw [hrun, takeTurns, hturn]
    rfl
  have hend : r.endInput p broken = { r with
      state := p.withTransport s' (p.transport s').close, progress := .stopped (.transport .peerClosed) } := by
    rw [Runner.endInput, ht]
    exact Runner.go_of_waiting (r := { r with state := p.withTransport r.state t }) progress hstop
  have hclose : (r.endInput p broken).transport p = (p.transport s').close := by
    rw [hend]
    exact hp.transport_withTransport _ _
  have hsent : ((r.endInput p broken).transport p).outgoing = (r.transport p).outgoing := by
    rw [hclose, Transport.close, hkept, ← ht]
    rfl
  refine ⟨.ended ?_ ?_ (hsent.trans live.outgoing) ?_, hsent, ?_⟩
  · rw [hend]
    rfl
  · rw [hclose]
    rfl
  · rw [hend]
    exact heard
  · rw [hclose, Transport.close, hkept]
    exact hended

/-- **A program to which everything has come ends at the latest when its peer closes its end.** -/
theorem endInput (hp : p.TakesTurns turn plan.length) (h : Plays p turn leaves opening plan r)
    (hall : r.heard = (stream plan).length) (broken : Bool) :
    Plays p turn leaves opening plan (r.endInput p broken) ∧
      ((r.endInput p broken).transport p).outgoing = (r.transport p).outgoing ∧
        ((r.endInput p broken).transport p).inputEnded = true := by
  cases h with
  | @talking done rest part I split follows holds live few heard progress =>
    cases rest with
    | cons e rest =>
      have hshort := few.2
      rw [heard, split, stream_append, stream_cons, List.length_append, List.length_append] at hall
      omega
    | nil =>
      obtain rfl : part = [] := few
      rw [List.append_nil] at split
      rw [← split] at live
      cases follows with
      | idle idles => exact endInput_of_idle hp idles holds live hall progress broken
  | ended progress closed outgoing heard => exact endInput_of_ended hp progress closed outgoing heard broken

end Plays

/-- How many steps a program can still take, if `n` bytes are to come to it. -/
def Runner.stepsLeft (p : Program σ) (n : Nat) (r : Runner σ) : Nat :=
  n - r.heard + if (r.transport p).inputEnded then 0 else 1

/-- **Whatever a program hears of its peer, it plays its part**, and the steps it can still take become
fewer. -/
theorem Plays.hears {peer : Transport} {r' : Runner σ} (hp : p.TakesTurns turn plan.length)
    (h : Plays p turn leaves opening plan r) (hears : r.Hears p peer r') (hpeer : peer.outgoing <+: stream plan)
    (hall : peer.isOpen = false → peer.outgoing = stream plan) :
    Plays p turn leaves opening plan r' ∧ r'.heard ≤ peer.outgoing.length ∧
      (r.transport p).outgoing <+: (r'.transport p).outgoing ∧
        r'.stepsLeft p (stream plan).length < r.stepsLeft p (stream plan).length := by
  cases hears with
  | bytes pieces some next =>
    obtain ⟨hplays, hsent, hended⟩ := h.receive hp some (next.trans (hpeer.drop r.heard))
    have hpos := List.length_pos_iff.2 some
    have hle := next.length_le
    rw [List.length_drop] at hle
    have hheard : (r.receive p pieces).heard = r.heard + pieces.flatten.length := Runner.heard_go
    have htotal := hplays.heard_le
    refine ⟨hplays, by omega, hsent, ?_⟩
    unfold Runner.stepsLeft
    rw [hended, if_neg Bool.false_ne_true]
    split <;> omega
  | ending broken closed all news =>
    obtain ⟨hplays, hsent, hended⟩ := h.endInput hp (all.trans (congrArg List.length (hall closed))) broken
    have hheard : (r.endInput p broken).heard = r.heard := Runner.heard_go
    refine ⟨hplays, by omega, ?_, ?_⟩
    · rw [hsent]
    · unfold Runner.stepsLeft
      rw [hended, news, hheard, if_pos rfl, if_neg Bool.false_ne_true]
      exact Nat.lt_succ_self _

end Playing

/-! ### Both programs -/

namespace Conversation

variable {σ τ : Type} {p : Program σ} {q : Program τ} {turnC : EStateM Fault σ Bool}
  {turnS : EStateM Fault τ Bool} {opening : Bytes} {planC planS : List Exchange} {c c' : Conversation σ τ}

/-- Both programs play their parts, and have heard nothing that was not sent. -/
structure OnCourse (p : Program σ) (q : Program τ) (turnC : EStateM Fault σ Bool)
    (turnS : EStateM Fault τ Bool) (opening : Bytes) (planC planS : List Exchange)
    (c : Conversation σ τ) : Prop where
  /-- The client begins, and leaves in the end. -/
  client : Plays p turnC true opening planC c.client
  /-- The server does neither. -/
  server : Plays q turnS false [] planS c.server
  /-- The client has heard the server. -/
  clientHeard : c.client.heard ≤ (c.server.transport q).outgoing.length
  /-- The server has heard the client. -/
  serverHeard : c.server.heard ≤ (c.client.transport p).outgoing.length

/-- A conversation is over, and all has gone as planned. -/
structure Complete (p : Program σ) (q : Program τ) (toServer toClient : Bytes) (c : Conversation σ τ) : Prop where
  /-- The client is done. -/
  client : c.client.progress = .finished
  /-- The server has learnt that. -/
  server : c.server.progress = .stopped (.transport .peerClosed)
  /-- What the client has sent. -/
  toServer : (c.client.transport p).outgoing = toServer
  /-- What the server has sent. -/
  toClient : (c.server.transport q).outgoing = toClient

/-- How many steps a conversation can still take. -/
def stepsLeft (p : Program σ) (q : Program τ) (planC planS : List Exchange) (c : Conversation σ τ) : Nat :=
  c.client.stepsLeft p (stream planC).length + c.server.stepsLeft q (stream planS).length

/-- **Whatever happens keeps a conversation on its course**, and it comes nearer to its end. -/
theorem OnCourse.step (hp : p.TakesTurns turnC planC.length) (hq : q.TakesTurns turnS planS.length)
    (hmatch : Matches opening planC planS) (h : OnCourse p q turnC turnS opening planC planS c)
    (hstep : Step p q c c') :
    OnCourse p q turnC turnS opening planC planS c' ∧ c'.stepsLeft p q planC planS < c.stepsLeft p q planC planS := by
  cases hstep with
  | client hears =>
    have hsent := h.server.outgoing_isPrefix
    have hclosed := h.server.outgoing_of_closed
    rw [List.nil_append, ← hmatch.stream_client] at hsent hclosed
    obtain ⟨hplays, hheard, hmore, hfewer⟩ := h.client.hears hp hears hsent hclosed
    exact ⟨⟨hplays, h.server, hheard, Nat.le_trans h.serverHeard hmore.length_le⟩, Nat.add_lt_add_right hfewer _⟩
  | server hears =>
    have hsent := h.client.outgoing_isPrefix
    have hclosed := h.client.outgoing_of_closed
    rw [← hmatch.stream_server] at hsent hclosed
    obtain ⟨hplays, hheard, hmore, hfewer⟩ := h.server.hears hq hears hsent hclosed
    exact ⟨⟨h.client, hplays, Nat.le_trans h.clientHeard hmore.length_le, hheard⟩, Nat.add_lt_add_left hfewer _⟩

theorem OnCourse.run {n : Nat} (hp : p.TakesTurns turnC planC.length) (hq : q.TakesTurns turnS planS.length)
    (hmatch : Matches opening planC planS) (h : OnCourse p q turnC turnS opening planC planS c)
    (hrun : Run p q n c c') :
    OnCourse p q turnC turnS opening planC planS c' ∧
      n + c'.stepsLeft p q planC planS ≤ c.stepsLeft p q planC planS := by
  induction hrun with
  | none => exact ⟨h, Nat.le_of_eq (Nat.zero_add _)⟩
  | more _ hstep ih =>
    obtain ⟨hcourse, hle⟩ := ih h
    obtain ⟨hcourse', hlt⟩ := hcourse.step hp hq hmatch hstep
    exact ⟨hcourse', by omega⟩

/-- **A conversation on its course goes on until it is complete.** -/
theorem OnCourse.step_or_complete (hmatch : Matches opening planC planS)
    (h : OnCourse p q turnC turnS opening planC planS c) :
    (∃ c', Step p q c c') ∨ Complete p q (opening ++ replies planC) (replies planS) c := by
  obtain ⟨client, server, clientHeard, serverHeard⟩ := h
  -- bytes on their way can arrive
  obtain hwayC | hheardC := Nat.lt_or_eq_of_le clientHeard
  · refine .inl ⟨_, .client (.bytes [(c.server.transport q).outgoing.drop c.client.heard] ?_ ?_)⟩
    · rw [List.flatten_singleton, ← List.length_pos_iff, List.length_drop]
      exact Nat.sub_pos_of_lt hwayC
    · rw [List.flatten_singleton]
  obtain hwayS | hheardS := Nat.lt_or_eq_of_le serverHeard
  · refine .inl ⟨_, .server (.bytes [(c.client.transport p).outgoing.drop c.server.heard] ?_ ?_)⟩
    · rw [List.flatten_singleton, ← List.length_pos_iff, List.length_drop]
      exact Nat.sub_pos_of_lt hwayS
    · rw [List.flatten_singleton]
  cases client with
  | @talking doneC restC partC I splitC follows _ liveC fewC heardC =>
    -- the client has what it awaits, or the server has
    cases server with
    | @talking doneS restS partS J splitS _ _ liveS fewS heardS =>
      rw [splitC, splitS] at hmatch
      rw [heardC, liveS.outgoing, List.nil_append] at hheardC
      rw [heardS, liveC.outgoing, List.length_append] at hheardS
      exact absurd (hmatch.settled fewC fewS hheardC hheardS).1 follows.ne_nil
    | ended _ _ outgoing =>
      rw [outgoing, List.nil_append, ← hmatch.stream_client, heardC, splitC, stream_append,
        List.length_append] at hheardC
      cases restC with
      | nil => exact absurd rfl follows.ne_nil
      | cons e restC =>
        have hshort := fewC.2
        rw [stream_cons, List.length_append] at hheardC
        omega
  | ended progressC closed outgoingC =>
    cases server with
    | talking _ _ _ liveS => exact .inl ⟨_, .server (.ending false closed hheardS liveS.inputEnded)⟩
    | ended progressS _ outgoingS => exact .inr ⟨progressC, progressS, outgoingC, outgoingS⟩

/-- **A conversation comes to its end.** Two programs whose plans fit, and that have come as far as they can
before anything arrives, take a bounded number of steps, whatever arrives when; and when there is none left
to take, the conversation is complete. -/
theorem completes (hp : p.TakesTurns turnC planC.length) (hq : q.TakesTurns turnS planS.length)
    (hmatch : Matches opening planC planS) {client : σ} {server : τ}
    (hclient : Comes p turnC true planC [] opening (p.run client))
    (hserver : Comes q turnS false planS [] [] (q.run server)) :
    ∃ bound, ∀ n c, Run p q n (start p q client server) c → n ≤ bound ∧
      ((∃ c', Step p q c c') ∨ Complete p q (opening ++ replies planC) (replies planS) c) := by
  have hstart : OnCourse p q turnC turnS opening planC planS (start p q client server) := by
    refine ⟨.start hp hclient, .start hq hserver, ?_, ?_⟩
    · exact Nat.le_trans (Nat.le_of_eq Runner.heard_go) (Nat.zero_le _)
    · exact Nat.le_trans (Nat.le_of_eq Runner.heard_go) (Nat.zero_le _)
  refine ⟨(start p q client server).stepsLeft p q planC planS, fun n c hrun => ?_⟩
  obtain ⟨hcourse, hle⟩ := hstart.run hp hq hmatch hrun
  exact ⟨Nat.le_trans (Nat.le_add_right _ _) hle, hcourse.step_or_complete hmatch⟩

end Conversation

end Stratum
