import Mathlib.Data.List.Induction
import Stratum.Proofs.HandshakeAgreement

/-!
# Runs of a handshake

A handshake is an object whose operations anybody may call, in any order and with
any arguments. This module says what one call does to an initiator and to a
responder (`Initiator.Moves`, `Responder.Moves`), with everything that must hold
for it, and derives what every run of calls keeps:

* an initiator trusts the authority it was made with (`Initiator.authority_run`);
* a phase is never left for one before it (`Initiator.rank_run_le`,
  `Responder.rank_run_le`), so that each step of the handshake is taken at most once;
* the ciphers of a side that has come through are unused
  (`Initiator.unused_of_established`, `Responder.unused_of_established`), and so are those
  of every session that a handshake hands out (**`Handshake.HandsOut.fresh`**).

The clock of an initiator is asked anew in each call that needs it, so the time is
an argument of that call. The random bytes of a call are its argument too.
-/

namespace Stratum

/-! ### The initiator -/

namespace Initiator

/-- A call of an operation of an initiator. -/
inductive Call where
  /-- Writes message 1 with a payload. -/
  | writeFirst (payload : Bytes) (entropy : Entropy)
  /-- Reads message 2 while the clock shows a time. -/
  | readSecond (message : Bytes) (now : UInt32)
  /-- Hands out the session. -/
  | intoSession (config : SessionConfig)

/-- What a call gives when it succeeds. -/
inductive Answer where
  /-- Message 1. -/
  | first (message : Bytes)
  /-- Message 2 is accepted. -/
  | accepted
  /-- The session. -/
  | session (s : Session)

/-- The initiator when its clock shows a time. -/
def atTime (i : Initiator) (now : UInt32) : Initiator := { i with clock := now }

variable (S : Suite)

/-- What a call gives, and the initiator after it. -/
def call (i : Initiator) : Call → Except Fault Answer × Initiator
  | .writeFirst payload entropy =>
    let (answer, i, _) := i.writeFirstMessage S payload entropy
    (answer.map .first, i)
  | .readSecond message now =>
    let (answer, i) := (i.atTime now).readSecondMessage S message
    (answer.map fun _ => .accepted, i)
  | .intoSession config =>
    let (answer, i) := i.intoSession config
    (answer.map .session, i)

/-- The initiator after some calls. -/
def run (i : Initiator) (calls : List Call) : Initiator := calls.foldl (fun i c => (i.call S c).2) i

/-- What a call does to an initiator. -/
inductive Moves (i : Initiator) : Call → Except Fault Answer → Initiator → Prop where
  /-- Message 1 is written. -/
  | wrote {payload message : Bytes} {entropy rest : Entropy} {ss : SymmetricState} {ephemeral : KeyPair}
      (begun : i.phase = .uninitialized)
      (made : firstMessage S payload entropy = .ok (message, ss, ephemeral) rest) :
      Moves i (.writeFirst payload entropy) (.ok (.first message))
        { i with phase := .awaitingSecondMessage ss ephemeral }
  /-- Message 2 is accepted. -/
  | accepted {message : Bytes} {now : UInt32} {ss : SymmetricState} {ephemeral : KeyPair} {phase : Phase}
      (awaiting : i.phase = .awaitingSecondMessage ss ephemeral)
      (found : secondMessage S i.authority now ss ephemeral message = .ok phase) :
      Moves i (.readSecond message now) (.ok .accepted) { i with clock := now, phase }
  /-- The session is handed out. -/
  | handedOut {config : SessionConfig} {send receive : KeyedCipher} {hash : Digest} {key : Key}
      {certificate : Certificate} (established : i.phase = .established send receive hash key certificate)
      (valid : config.validate = .ok ()) :
      Moves i (.intoSession config)
        (.ok (.session { role := .initiator, sending := .ofCipher send, receiving := .ofCipher receive, hash, config }))
        { i with phase := .consumed }
  /-- The session is not handed out, and nothing changes. -/
  | kept {config : SessionConfig} {cause : Fault}
      (refused : i.isEstablished = false ∨ config.validate ≠ .ok ()) :
      Moves i (.intoSession config) (.error cause) i
  /-- The handshake is over. -/
  | broken {c : Call} {cause : Fault} {i' : Initiator} (handshake : ∀ config, c ≠ .intoSession config)
      (phase : i'.phase = .failed) (authority : i'.authority = i.authority) : Moves i c (.error cause) i'

theorem call_moves (i : Initiator) (c : Call) : Moves S i c (i.call S c).1 (i.call S c).2 := by
  cases c with
  | writeFirst payload entropy =>
    have handshake : ∀ config, Call.writeFirst payload entropy ≠ .intoSession config := fun _ h => nomatch h
    simp only [call, writeFirstMessage]
    split
    · rename_i hphase
      exact .broken handshake hphase rfl
    · rename_i hphase
      split
      · rename_i hfirst
        exact .wrote hphase hfirst
      · exact .broken handshake rfl rfl
    · exact .broken handshake rfl rfl
  | readSecond message now =>
    have handshake : ∀ config, Call.readSecond message now ≠ .intoSession config := fun _ h => nomatch h
    simp only [call, readSecondMessage]
    split
    · rename_i hphase
      exact .broken handshake hphase rfl
    · rename_i hphase
      split
      · rename_i hsecond
        exact .accepted hphase hsecond
      · exact .broken handshake rfl rfl
    · exact .broken handshake rfl rfl
  | intoSession config =>
    simp only [call, intoSession]
    split
    · rename_i hphase
      exact .kept (.inl (by rw [isEstablished, hphase]))
    · rename_i hphase
      split
      · rename_i hinvalid
        exact .kept (.inr (by rw [hinvalid]; nofun))
      · rename_i hvalid
        exact .handedOut hphase hvalid
    · rename_i hnot
      refine .kept (.inl ?_)
      unfold isEstablished
      split
      · rename_i hphase
        exact absurd hphase (hnot _ _ _ _ _)
      · rfl

variable {S}

/-- How far along a phase is. -/
def Phase.rank : Phase → Nat
  | uninitialized => 0
  | awaitingSecondMessage _ _ => 1
  | established _ _ _ _ _ => 2
  | consumed => 3
  | failed => 4

theorem Phase.rank_le (p : Phase) : p.rank ≤ 4 := by
  cases p <;> simp [rank]

theorem isEstablished_iff {i : Initiator} : i.isEstablished = true ↔
    ∃ send receive hash key certificate, i.phase = .established send receive hash key certificate := by
  unfold isEstablished
  cases i.phase <;> simp

theorem isEstablished_iff_rank {i : Initiator} : i.isEstablished = true ↔ i.phase.rank = 2 := by
  unfold isEstablished
  cases i.phase <;> simp [Phase.rank]

/-- The session of an initiator has the ciphers of its handshake. -/
theorem intoSession_eq_ok_iff {i i' : Initiator} {config : SessionConfig} {s : Session}
    {send receive : KeyedCipher} {hash : Digest} {key : Key} {certificate : Certificate}
    (hphase : i.phase = .established send receive hash key certificate) :
    i.intoSession config = (.ok s, i') ↔ config.validate = .ok () ∧
      s = { role := .initiator, sending := .ofCipher send, receiving := .ofCipher receive, hash, config } ∧
        i' = { i with phase := .consumed } := by
  unfold intoSession
  rw [hphase]
  dsimp only
  cases config.validate with
  | error e => exact ⟨fun h => (nomatch h), fun h => (nomatch h.1)⟩
  | ok u =>
    constructor
    · intro h
      cases h
      exact ⟨rfl, rfl, rfl⟩
    · rintro ⟨-, rfl, rfl⟩
      rfl

/-- Only an established initiator hands out its session. -/
theorem isEstablished_of_intoSession {i i' : Initiator} {config : SessionConfig} {s : Session}
    (h : i.intoSession config = (.ok s, i')) : i.isEstablished = true := by
  unfold intoSession at h
  split at h
  · cases h
  · rename_i hphase
    exact isEstablished_iff.2 ⟨_, _, _, _, _, hphase⟩
  · cases h

/-- What message 2 establishes has two ciphers that are not used yet. -/
theorem secondMessage_unused {authority : Key} {now : UInt32} {ss : SymmetricState} {ephemeral : KeyPair}
    {message : Bytes} {phase : Phase} (h : secondMessage S authority now ss ephemeral message = .ok phase) :
    ∃ k₁ k₂ hash key certificate, phase = .established (.ofKey k₁) (.ofKey k₂) hash key certificate := by
  unfold secondMessage at h
  split at h
  · cases h
  · obtain ⟨_, -, h⟩ := Attempt.bind_eq_ok_iff.1 h
    obtain ⟨_, -, h⟩ := Attempt.bind_eq_ok_iff.1 h
    obtain ⟨_, -, h⟩ := Attempt.bind_eq_ok_iff.1 h
    obtain ⟨_, -, h⟩ := Attempt.bind_eq_ok_iff.1 h
    obtain ⟨_, -, h⟩ := Attempt.bind_eq_ok_iff.1 h
    obtain ⟨_, -, h⟩ := Attempt.bind_eq_ok_iff.1 h
    cases h
    exact ⟨_, _, _, _, _, rfl⟩

namespace Moves

variable {i i' : Initiator} {c : Call} {answer : Except Fault Answer}

theorem authority_eq (h : Moves S i c answer i') : i'.authority = i.authority := by
  cases h with
  | broken _ _ authority => exact authority
  | _ => rfl

/-- No call leads back. -/
theorem rank_le (h : Moves S i c answer i') : i.phase.rank ≤ i'.phase.rank := by
  cases h with
  | wrote begun => rw [begun]; exact Nat.zero_le _
  | accepted awaiting found =>
    obtain ⟨_, _, _, _, _, rfl⟩ := secondMessage_unused found
    rw [awaiting]
    exact Nat.le_succ 1
  | handedOut established => rw [established]; exact Nat.le_succ 2
  | kept => exact Nat.le_refl _
  | broken _ phase => rw [phase]; exact i.phase.rank_le

/-- A side that has come through has just come through, or was so before and was asked in vain for its
session. -/
theorem of_established {send receive : KeyedCipher} {hash : Digest} {key : Key} {certificate : Certificate}
    (h : Moves S i c answer i') (hphase : i'.phase = .established send receive hash key certificate) :
    (∃ message now ss ephemeral, c = .readSecond message now ∧ answer = .ok .accepted ∧
      i.phase = .awaitingSecondMessage ss ephemeral ∧
        secondMessage S i.authority now ss ephemeral message
          = .ok (.established send receive hash key certificate)) ∨ i' = i := by
  cases h with
  | wrote => cases hphase
  | accepted awaiting found => exact .inl ⟨_, _, _, _, rfl, rfl, awaiting, by rw [found]; exact congrArg _ hphase⟩
  | handedOut => cases hphase
  | kept => exact .inr rfl
  | broken _ phase => cases phase.symm.trans hphase

end Moves

/-- An initiator begins with the authority that it is given. -/
theorem of_make {authority : Key} {clock : Option UInt32} {i : Initiator} (h : make authority clock = .ok i) :
    i.authority = authority ∧ i.phase = .uninitialized := by
  cases clock with
  | none => cases h
  | some clock =>
    cases h
    exact ⟨rfl, rfl⟩

theorem run_append (i : Initiator) (before after : List Call) :
    i.run S (before ++ after) = (i.run S before).run S after :=
  List.foldl_append

theorem run_concat (i : Initiator) (calls : List Call) (c : Call) :
    i.run S (calls ++ [c]) = ((i.run S calls).call S c).2 := by
  rw [run_append]
  rfl

theorem authority_run (i : Initiator) (calls : List Call) : (i.run S calls).authority = i.authority := by
  induction calls generalizing i with
  | nil => rfl
  | cons c calls ih => exact (ih _).trans (call_moves S i c).authority_eq

/-- **No run of calls leads back.** -/
theorem rank_run_le (i : Initiator) (calls : List Call) : i.phase.rank ≤ (i.run S calls).phase.rank := by
  induction calls generalizing i with
  | nil => exact Nat.le_refl _
  | cons c calls ih => exact Nat.le_trans (call_moves S i c).rank_le (ih _)

/-- An initiator that has come through has two ciphers that are not used yet. -/
theorem unused_of_established {i : Initiator} (hi : i.phase = .uninitialized) {calls : List Call}
    {send receive : KeyedCipher} {hash : Digest} {key : Key} {certificate : Certificate}
    (h : (i.run S calls).phase = .established send receive hash key certificate) :
    ∃ k₁ k₂, send = .ofKey k₁ ∧ receive = .ofKey k₂ := by
  induction calls using List.reverseRecOn with
  | nil => cases hi.symm.trans h
  | append_singleton calls c ih =>
    rw [run_concat] at h
    obtain ⟨_, _, _, _, -, -, -, hfound⟩ | hsame := (call_moves S _ c).of_established h
    · obtain ⟨k₁, k₂, _, _, _, hphase⟩ := secondMessage_unused hfound
      cases hphase
      exact ⟨k₁, k₂, rfl, rfl⟩
    · rw [hsame] at h
      exact ih h

end Initiator

/-! ### The responder -/

namespace Responder

/-- A call of an operation of a responder. -/
inductive Call where
  /-- Reads message 1 and writes message 2. -/
  | respond (message : Bytes) (entropy : Entropy)
  /-- Hands out the session. -/
  | intoSession (config : SessionConfig)

/-- What a call gives when it succeeds. -/
inductive Answer where
  /-- Message 2. -/
  | second (message : Bytes)
  /-- The session. -/
  | session (s : Session)

variable (S : Suite)

/-- What a call gives, and the responder after it. -/
def call (r : Responder) : Call → Except Fault Answer × Responder
  | .respond message entropy =>
    let (reply, r, _) := r.respond S message entropy
    (reply.map .second, r)
  | .intoSession config =>
    let (reply, r) := r.intoSession config
    (reply.map .session, r)

/-- The responder after some calls. -/
def run (r : Responder) (calls : List Call) : Responder := calls.foldl (fun r c => (r.call S c).2) r

/-- What a call does to a responder. -/
inductive Moves (r : Responder) : Call → Except Fault Answer → Responder → Prop where
  /-- Message 1 is answered. -/
  | answered {message reply : Bytes} {entropy rest : Entropy} {phase : Phase}
      (awaiting : r.phase = .awaitingFirstMessage)
      (made : answer S r.staticKeys r.certificate message entropy = .ok (reply, phase) rest) :
      Moves r (.respond message entropy) (.ok (.second reply)) { r with phase }
  /-- The session is handed out. -/
  | handedOut {config : SessionConfig} {send receive : KeyedCipher} {hash : Digest} {first : Bytes}
      (established : r.phase = .established send receive hash first) (valid : config.validate = .ok ()) :
      Moves r (.intoSession config)
        (.ok (.session { role := .responder, sending := .ofCipher send, receiving := .ofCipher receive, hash, config }))
        { r with phase := .consumed }
  /-- The session is not handed out, and nothing changes. -/
  | kept {config : SessionConfig} {cause : Fault}
      (refused : r.isEstablished = false ∨ config.validate ≠ .ok ()) :
      Moves r (.intoSession config) (.error cause) r
  /-- The handshake is over. -/
  | broken {c : Call} {cause : Fault} {r' : Responder} (handshake : ∀ config, c ≠ .intoSession config)
      (phase : r'.phase = .failed) : Moves r c (.error cause) r'

theorem call_moves (r : Responder) (c : Call) : Moves S r c (r.call S c).1 (r.call S c).2 := by
  cases c with
  | respond message entropy =>
    have handshake : ∀ config, Call.respond message entropy ≠ .intoSession config := fun _ h => nomatch h
    simp only [call, respond]
    split
    · rename_i hphase
      exact .broken handshake hphase
    · rename_i hphase
      split
      · rename_i hanswer
        exact .answered hphase hanswer
      · exact .broken handshake rfl
    · exact .broken handshake rfl
  | intoSession config =>
    simp only [call, intoSession]
    split
    · rename_i hphase
      exact .kept (.inl (by rw [isEstablished, hphase]))
    · rename_i hphase
      split
      · rename_i hinvalid
        exact .kept (.inr (by rw [hinvalid]; nofun))
      · rename_i hvalid
        exact .handedOut hphase hvalid
    · rename_i hnot
      refine .kept (.inl ?_)
      unfold isEstablished
      split
      · rename_i hphase
        exact absurd hphase (hnot _ _ _ _)
      · rfl

variable {S}

/-- How far along a phase is. -/
def Phase.rank : Phase → Nat
  | awaitingFirstMessage => 0
  | established _ _ _ _ => 1
  | consumed => 2
  | failed => 3

theorem Phase.rank_le (p : Phase) : p.rank ≤ 3 := by
  cases p <;> simp [rank]

theorem isEstablished_iff {r : Responder} : r.isEstablished = true ↔
    ∃ send receive hash first, r.phase = .established send receive hash first := by
  unfold isEstablished
  cases r.phase <;> simp

/-- The session of a responder has the ciphers of its handshake. -/
theorem intoSession_eq_ok_iff {r r' : Responder} {config : SessionConfig} {s : Session}
    {send receive : KeyedCipher} {hash : Digest} {first : Bytes}
    (hphase : r.phase = .established send receive hash first) :
    r.intoSession config = (.ok s, r') ↔ config.validate = .ok () ∧
      s = { role := .responder, sending := .ofCipher send, receiving := .ofCipher receive, hash, config } ∧
        r' = { r with phase := .consumed } := by
  unfold intoSession
  rw [hphase]
  dsimp only
  cases config.validate with
  | error e => exact ⟨fun h => (nomatch h), fun h => (nomatch h.1)⟩
  | ok u =>
    constructor
    · intro h
      cases h
      exact ⟨rfl, rfl, rfl⟩
    · rintro ⟨-, rfl, rfl⟩
      rfl

/-- Only an established responder hands out its session. -/
theorem isEstablished_of_intoSession {r r' : Responder} {config : SessionConfig} {s : Session}
    (h : r.intoSession config = (.ok s, r')) : r.isEstablished = true := by
  unfold intoSession at h
  split at h
  · cases h
  · rename_i hphase
    exact isEstablished_iff.2 ⟨_, _, _, _, hphase⟩
  · cases h

/-- What message 1 establishes has two ciphers that are not used yet. -/
theorem answer_unused {static : KeyPair} {certificate : CertificateMessage} {message reply : Bytes}
    {entropy rest : Entropy} {phase : Phase}
    (h : answer S static certificate message entropy = .ok (reply, phase) rest) :
    ∃ k₁ k₂ hash first, phase = .established (.ofKey k₁) (.ofKey k₂) hash first := by
  unfold answer at h
  dsimp only at h
  split at h
  · cases h
  · obtain ⟨⟨first, ss⟩, _, -, h⟩ := Step.bind_eq_ok_iff.1 h
    obtain ⟨e, _, -, h⟩ := Step.bind_eq_ok_iff.1 h
    obtain ⟨h, -⟩ := Step.ofExcept_eq_ok_iff.1 h
    unfold secondMessage at h
    obtain ⟨_, -, h⟩ := Attempt.bind_eq_ok_iff.1 h
    obtain ⟨_, -, h⟩ := Attempt.bind_eq_ok_iff.1 h
    obtain ⟨_, -, h⟩ := Attempt.bind_eq_ok_iff.1 h
    obtain ⟨_, -, h⟩ := Attempt.bind_eq_ok_iff.1 h
    cases h
    exact ⟨_, _, _, _, rfl⟩

namespace Moves

variable {r r' : Responder} {c : Call} {reply : Except Fault Answer}

/-- No call leads back. -/
theorem rank_le (h : Moves S r c reply r') : r.phase.rank ≤ r'.phase.rank := by
  cases h with
  | answered awaiting => rw [awaiting]; exact Nat.zero_le _
  | handedOut established => rw [established]; exact Nat.le_succ 1
  | kept => exact Nat.le_refl _
  | broken _ phase => rw [phase]; exact r.phase.rank_le

/-- A side that has come through has just come through, or was so before and was asked in vain for its
session. -/
theorem of_established {send receive : KeyedCipher} {hash : Digest} {first : Bytes}
    (h : Moves S r c reply r') (hphase : r'.phase = .established send receive hash first) :
    (∃ message entropy second rest, c = .respond message entropy ∧
      answer S r.staticKeys r.certificate message entropy
        = .ok (second, .established send receive hash first) rest) ∨ r' = r := by
  cases h with
  | answered _ made => exact .inl ⟨_, _, _, _, rfl, by rw [made]; congr 2⟩
  | handedOut => cases hphase
  | kept => exact .inr rfl
  | broken _ phase => cases phase.symm.trans hphase

end Moves

theorem phase_of_make {static : Option KeyPair} {certificate : CertificateMessage} {r : Responder}
    (h : make static certificate = .ok r) : r.phase = .awaitingFirstMessage := by
  cases static with
  | none => cases h
  | some static =>
    cases h
    rfl

theorem run_append (r : Responder) (before after : List Call) :
    r.run S (before ++ after) = (r.run S before).run S after :=
  List.foldl_append

theorem run_concat (r : Responder) (calls : List Call) (c : Call) :
    r.run S (calls ++ [c]) = ((r.run S calls).call S c).2 := by
  rw [run_append]
  rfl

/-- **No run of calls leads back.** -/
theorem rank_run_le (r : Responder) (calls : List Call) : r.phase.rank ≤ (r.run S calls).phase.rank := by
  induction calls generalizing r with
  | nil => exact Nat.le_refl _
  | cons c calls ih => exact Nat.le_trans (call_moves S r c).rank_le (ih _)

/-- A responder that has come through has two ciphers that are not used yet. -/
theorem unused_of_established {r : Responder} (hr : r.phase = .awaitingFirstMessage) {calls : List Call}
    {send receive : KeyedCipher} {hash : Digest} {first : Bytes}
    (h : (r.run S calls).phase = .established send receive hash first) :
    ∃ k₁ k₂, send = .ofKey k₁ ∧ receive = .ofKey k₂ := by
  induction calls using List.reverseRecOn with
  | nil => cases hr.symm.trans h
  | append_singleton calls c ih =>
    rw [run_concat] at h
    obtain ⟨_, _, _, _, -, hmade⟩ | hsame := (call_moves S _ c).of_established h
    · obtain ⟨k₁, k₂, _, _, hphase⟩ := answer_unused hmade
      cases hphase
      exact ⟨k₁, k₂, rfl, rfl⟩
    · rw [hsame] at h
      exact ih h

end Responder

/-! ### What a handshake hands out -/

namespace Handshake

variable {S : Suite}

/-- The calls that an undisturbed handshake makes of its initiator lead where it leads. -/
theorem Run.initiator_eq {i₀ : Initiator} {r₀ : Responder} {payload : Bytes} {ea eb : Entropy}
    (run : Handshake.Run S i₀ r₀ payload ea eb) :
    i₀.run S [.writeFirst payload ea, .readSecond run.second i₀.clock] = run.initiator := by
  obtain ⟨-, _, _, -, hwaiting⟩ := Initiator.writeFirstMessage_eq_ok_iff.1 run.wrote
  have hclock : run.waiting.atTime i₀.clock = run.waiting := by rw [hwaiting]; rfl
  have hwrote : (i₀.call S (.writeFirst payload ea)).2 = run.waiting := by
    rw [Initiator.call, run.wrote]
  have hread : (run.waiting.call S (.readSecond run.second i₀.clock)).2 = run.initiator := by
    rw [Initiator.call, hclock, run.read]
  show ((i₀.call S (.writeFirst payload ea)).2.call S (.readSecond run.second i₀.clock)).2 = run.initiator
  rw [hwrote, hread]

/-- So does the call that it makes of its responder. -/
theorem Run.responder_eq {i₀ : Initiator} {r₀ : Responder} {payload : Bytes} {ea eb : Entropy}
    (run : Handshake.Run S i₀ r₀ payload ea eb) :
    r₀.run S [.respond run.first eb] = run.responder := by
  show (r₀.call S (.respond run.first eb)).2 = run.responder
  rw [Responder.call, run.answered]

/-- The sessions that a handshake hands out, on either side and whatever has been called. -/
inductive HandsOut (S : Suite) : Session → Prop where
  /-- An initiator hands out a session. -/
  | initiator {authority : Key} {clock : Option UInt32} {i i' : Initiator} {calls : List Initiator.Call}
      {config : SessionConfig} {s : Session} (made : Initiator.make authority clock = .ok i)
      (handed : (i.run S calls).intoSession config = (.ok s, i')) : HandsOut S s
  /-- A responder hands out a session. -/
  | responder {static : Option KeyPair} {certificate : CertificateMessage} {r r' : Responder}
      {calls : List Responder.Call} {config : SessionConfig} {s : Session}
      (made : Responder.make static certificate = .ok r)
      (handed : (r.run S calls).intoSession config = (.ok s, r')) : HandsOut S s

/-- **A session that is handed out has two ciphers that are not used yet**, and nothing has happened to it. -/
theorem HandsOut.fresh {s : Session} (h : HandsOut S s) :
    ∃ ks kr, s.sending = .ofCipher (.ofKey ks) ∧ s.receiving = .ofCipher (.ofKey kr) ∧
      s.pendingHeader = none ∧ s.poisoned = false := by
  cases h with
  | initiator made handed =>
    obtain ⟨_, _, _, _, _, hphase⟩ := Initiator.isEstablished_iff.1 (Initiator.isEstablished_of_intoSession handed)
    obtain ⟨ks, kr, rfl, rfl⟩ := Initiator.unused_of_established (Initiator.of_make made).2 hphase
    obtain ⟨-, rfl, -⟩ := (Initiator.intoSession_eq_ok_iff hphase).1 handed
    exact ⟨ks, kr, rfl, rfl, rfl, rfl⟩
  | responder made handed =>
    obtain ⟨_, _, _, _, hphase⟩ := Responder.isEstablished_iff.1 (Responder.isEstablished_of_intoSession handed)
    obtain ⟨ks, kr, rfl, rfl⟩ := Responder.unused_of_established (Responder.phase_of_make made) hphase
    obtain ⟨-, rfl, -⟩ := (Responder.intoSession_eq_ok_iff hphase).1 handed
    exact ⟨ks, kr, rfl, rfl, rfl, rfl⟩

/-- **Both sides of an undisturbed handshake hand out a session**, and what one of them sends is what the
other receives. -/
theorem Run.exists_handsOut (hS : S.Sealing) {authority : Key} {clock : Option UInt32} {static : Option KeyPair}
    {certificate : CertificateMessage} {i₀ : Initiator} {r₀ : Responder} {payload : Bytes} {ea eb : Entropy}
    (run : Handshake.Run S i₀ r₀ payload ea eb) (hi : Initiator.make authority clock = .ok i₀)
    (hr : Responder.make static certificate = .ok r₀)
    (hee : (KeyPair.ofEntropy S ea).Agree S (.ofEntropy S eb))
    (hes : (KeyPair.ofEntropy S ea).Agree S r₀.staticKeys) {ci cr : SessionConfig} (hci : ci.validate = .ok ())
    (hcr : cr.validate = .ok ()) :
    ∃ si sr, HandsOut S si ∧ HandsOut S sr ∧ si.config = ci ∧ sr.config = cr ∧ si.sending = sr.receiving ∧
      sr.sending = si.receiving := by
  obtain ⟨-, -, _, _, _, _, -, hinitiator, hresponder⟩ := run.mirror hS hee hes
  have hsi := (Initiator.intoSession_eq_ok_iff hinitiator).2 ⟨hci, rfl, rfl⟩
  have hsr := (Responder.intoSession_eq_ok_iff hresponder).2 ⟨hcr, rfl, rfl⟩
  rw [← run.initiator_eq] at hsi
  rw [← run.responder_eq] at hsr
  exact ⟨_, _, .initiator hi hsi, .responder hr hsr, rfl, rfl, rfl, rfl⟩

open Sample in
/-- So it is on the suite of the protocol, with any settings. -/
theorem Sample.exists_handsOut (ci cr : SessionConfig) (hci : ci.validate = .ok ()) (hcr : cr.validate = .ok ()) :
    ∃ si sr, HandsOut Suite.standard si ∧ HandsOut Suite.standard sr ∧ si.config = ci ∧ sr.config = cr ∧
      si.sending = sr.receiving ∧ sr.sending = si.receiving := by
  obtain ⟨_, hverify⟩ := exists_verify
  have hS := Suite.standard_exact.toSealing
  obtain ⟨run⟩ : Nonempty (Handshake.Run Suite.standard initiator responder [] initiatorEntropy responderEntropy) :=
    Handshake.exists_run hS rfl rfl hverify (by decide) (by decide) (by decide) ephemeral_agree static_agree
  have hi : Initiator.make authority.publicKey (some 2000) = .ok initiator := rfl
  have hr : Responder.make (some static) certificate = .ok responder := rfl
  exact run.exists_handsOut hS hi hr ephemeral_agree static_agree hci hcr

end Handshake

end Stratum
