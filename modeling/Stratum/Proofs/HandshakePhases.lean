import Stratum.Proofs.HandshakeRuns

/-!
# The phases of a handshake

Either side of a handshake is an object that may be called in any order. It has phases, one
behind the other, and one more for a handshake that has failed; and it hands out its session
once. The two sides differ in their phases and in their calls, and in nothing that is said here,
so that it is said of any such object (`Handshake.Side`):

* `Side.Moves`: what a single call can do. A message takes the object one step on or ends the
  handshake; a request for the session hands it out or is refused;
* `Side.Orderly`: what every run of calls does. A call leaves the phase, goes one step on or
  ends the handshake; a failed message ends it; nothing is possible after the end; the session
  is handed out at most once, and only to one who asks in the established phase; and a refused
  request for it changes nothing, so that it can be repeated;
* `Side.Lawful.orderly`: an object whose calls do no more than they can is orderly;
* **`Handshake.phases_in_order`**: initiators and responders are orderly.
-/

namespace Stratum

namespace Handshake

/-- One side of a handshake, as an object that is called. -/
structure Side (σ π κ α : Type) where
  /-- What a call gives, and the object after it. -/
  call : σ → κ → Except Fault α × σ
  /-- How far the object has come. -/
  phase : σ → π
  /-- One step on the way to the session. -/
  Next : π → π → Prop
  /-- The phase after an error. -/
  failed : π
  /-- What the established phase has for sending and for receiving. No other phase has it. -/
  ciphers? : π → Option (KeyedCipher × KeyedCipher)
  /-- The call that asks for the session. -/
  request : SessionConfig → κ
  /-- The session that is handed out with an answer. -/
  session? : α → Option Session

namespace Side

variable {σ π κ α : Type} (side : Side σ π κ α)

/-- The object after some calls. -/
def run (s : σ) (calls : List κ) : σ := calls.foldl (fun s c => (side.call s c).2) s

/-- The session that is handed out with what a call gives. -/
def handed? (answer : Except Fault α) : Option Session := answer.toOption.bind side.session?

/-- The sessions that are handed out during some calls. -/
def sessions (s : σ) : List κ → List Session
  | [] => []
  | c :: calls => (side.handed? (side.call s c).1).toList ++ sessions (side.call s c).2 calls

/-- What every run of calls of an object does. -/
structure Orderly (s : σ) : Prop where
  /-- A call leaves the phase, goes one step on, or ends the handshake. -/
  advances : ∀ calls c, side.phase (side.call (side.run s calls) c).2 = side.phase (side.run s calls) ∨
    side.Next (side.phase (side.run s calls)) (side.phase (side.call (side.run s calls) c).2) ∨
      side.phase (side.call (side.run s calls) c).2 = side.failed
  /-- An error ends the handshake, if it was not the session that was asked for. -/
  breaks : ∀ calls c e, (∀ config, c ≠ side.request config) → (side.call (side.run s calls) c).1 = .error e →
    side.phase (side.call (side.run s calls) c).2 = side.failed
  /-- After the end there is no other phase, and every call fails. -/
  ends : ∀ calls, side.phase (side.run s calls) = side.failed → ∀ later,
    side.phase (side.run s (calls ++ later)) = side.failed ∧
      ∀ c, ∃ e, (side.call (side.run s (calls ++ later)) c).1 = .error e
  /-- The session is handed out at most once. -/
  once : ∀ calls, (side.sessions s calls).length ≤ 1
  /-- It is handed out to one who asks for it in the established phase, and has the ciphers of that phase. -/
  handed : ∀ calls c session, side.handed? (side.call (side.run s calls) c).1 = some session →
    ∃ config, c = side.request config ∧ config.validate = .ok () ∧
      side.ciphers? (side.phase (side.run s calls)) = some (session.sending.cipher, session.receiving.cipher)
  /-- A request that is refused changes nothing. -/
  kept : ∀ calls config e, (side.call (side.run s calls) (side.request config)).1 = .error e →
    (side.call (side.run s calls) (side.request config)).2 = side.run s calls
  /-- However often it was refused for its settings, a request with good ones succeeds, with the same
  ciphers. -/
  repeats : ∀ calls send receive, side.ciphers? (side.phase (side.run s calls)) = some (send, receive) →
    ∀ refused : List SessionConfig, (∀ config ∈ refused, config.validate ≠ .ok ()) →
      ∀ config, config.validate = .ok () →
        ∃ session, side.handed? (side.call (side.run s (calls ++ refused.map side.request)) (side.request config)).1
            = some session ∧
          session.sending = .ofCipher send ∧ session.receiving = .ofCipher receive ∧ session.config = config

/-! ### A single call -/

/-- What a single call can do. -/
inductive Moves (s : σ) : κ → Except Fault α → σ → Prop where
  /-- A message takes the object one step on. -/
  | stepped {c : κ} {a : α} {s' : σ} (message : ∀ config, c ≠ side.request config) (plain : side.session? a = none)
      (next : side.Next (side.phase s) (side.phase s')) : Moves s c (.ok a) s'
  /-- The session is handed out. -/
  | handedOut {config : SessionConfig} {a : α} {s' : σ} {session : Session} {send receive : KeyedCipher}
      (given : side.session? a = some session) (established : side.ciphers? (side.phase s) = some (send, receive))
      (valid : config.validate = .ok ()) (sending : session.sending = .ofCipher send)
      (receiving : session.receiving = .ofCipher receive) (settings : session.config = config)
      (next : side.Next (side.phase s) (side.phase s')) : Moves s (side.request config) (.ok a) s'
  /-- The session is not handed out, and nothing changes. -/
  | kept {config : SessionConfig} {cause : Fault}
      (refused : side.ciphers? (side.phase s) = none ∨ config.validate ≠ .ok ()) :
      Moves s (side.request config) (.error cause) s
  /-- The handshake is over. -/
  | broken {c : κ} {cause : Fault} {s' : σ} (message : ∀ config, c ≠ side.request config)
      (ended : side.phase s' = side.failed) : Moves s c (.error cause) s'

/-- The calls of an object do no more than they can. Its phases have ranks along the way, of which the
established phase has a given one. -/
structure Lawful (rank : π → Nat) (established : Nat) : Prop where
  /-- A call does what it can. -/
  moves : ∀ s c, side.Moves s c (side.call s c).1 (side.call s c).2
  /-- Requests differ by their settings only. -/
  request_inj : ∀ {config config'}, side.request config = side.request config' → config = config'
  /-- A step goes up. -/
  rank_lt : ∀ {p q}, side.Next p q → rank p < rank q
  /-- The phase after an error is on top. -/
  rank_le : ∀ p, rank p ≤ rank side.failed
  /-- The established phase has its rank. -/
  rank_eq : ∀ {p ciphers}, side.ciphers? p = some ciphers → rank p = established

variable {side}

theorem run_append (s : σ) (before after : List κ) :
    side.run s (before ++ after) = side.run (side.run s before) after :=
  List.foldl_append

section

variable {s s' : σ} {c : κ} {answer : Except Fault α} {config : SessionConfig}

theorem Moves.advances (hmoves : side.Moves s c answer s') :
    side.phase s' = side.phase s ∨ side.Next (side.phase s) (side.phase s') ∨ side.phase s' = side.failed := by
  cases hmoves with
  | stepped _ _ next => exact .inr (.inl next)
  | handedOut _ _ _ _ _ _ next => exact .inr (.inl next)
  | kept => exact .inl rfl
  | broken _ ended => exact .inr (.inr ended)

theorem Moves.breaks {e : Fault} (hmoves : side.Moves s c (.error e) s')
    (hc : ∀ config, c ≠ side.request config) : side.phase s' = side.failed := by
  cases hmoves with
  | kept => exact absurd rfl (hc _)
  | broken _ ended => exact ended

theorem Moves.kept_eq {e : Fault} (hmoves : side.Moves s c (.error e) s') (hc : c = side.request config) :
    s' = s := by
  cases hmoves with
  | kept => rfl
  | broken message => exact absurd hc (message config)

namespace Lawful

variable {rank : π → Nat} {established : Nat} (h : side.Lawful rank established)
include h

/-- No call leads back. -/
theorem rank_le_of_moves (hmoves : side.Moves s c answer s') : rank (side.phase s) ≤ rank (side.phase s') := by
  rcases hmoves.advances with hsame | hnext | hfailed
  · exact Nat.le_of_eq (congrArg rank hsame).symm
  · exact Nat.le_of_lt (h.rank_lt hnext)
  · rw [hfailed]
    exact h.rank_le _

/-- No step leads on from the phase after an error. -/
theorem not_next_failed {q : π} : ¬ side.Next side.failed q := by
  intro hnext
  have hlt := h.rank_lt hnext
  have hle := h.rank_le q
  omega

theorem ends (hmoves : side.Moves s c answer s') (hs : side.phase s = side.failed) :
    side.phase s' = side.failed ∧ ∃ e, answer = .error e := by
  cases hmoves with
  | stepped _ _ next => exact absurd (hs ▸ next) h.not_next_failed
  | handedOut _ _ _ _ _ _ next => exact absurd (hs ▸ next) h.not_next_failed
  | kept => exact ⟨hs, _, rfl⟩
  | broken _ ended => exact ⟨ended, _, rfl⟩

/-- A session is the answer to a good request in the established phase, which is left by it. -/
theorem handed {session : Session} (hmoves : side.Moves s c answer s')
    (hsession : side.handed? answer = some session) :
    established < rank (side.phase s') ∧ ∃ config, c = side.request config ∧ config.validate = .ok () ∧
      side.ciphers? (side.phase s) = some (session.sending.cipher, session.receiving.cipher) := by
  cases hmoves with
  | stepped _ plain => cases plain.symm.trans hsession
  | handedOut given hestablished valid sending receiving _ next =>
    obtain rfl := Option.some.inj (given.symm.trans hsession)
    refine ⟨h.rank_eq hestablished ▸ h.rank_lt next, _, rfl, valid, ?_⟩
    rw [sending, receiving]
    exact hestablished
  | kept => cases hsession
  | broken => cases hsession

/-- What is asked for with bad settings is refused. -/
theorem refuses (hmoves : side.Moves s c answer s') (hc : c = side.request config)
    (hconfig : config.validate ≠ .ok ()) : ∃ e, answer = .error e := by
  cases hmoves with
  | stepped message => exact absurd hc (message config)
  | handedOut _ _ valid =>
    obtain rfl := h.request_inj hc
    exact absurd valid hconfig
  | kept => exact ⟨_, rfl⟩
  | broken => exact ⟨_, rfl⟩

/-- A good request in the established phase succeeds. -/
theorem succeeds {send receive : KeyedCipher} (hmoves : side.Moves s c answer s') (hc : c = side.request config)
    (hs : side.ciphers? (side.phase s) = some (send, receive)) (hconfig : config.validate = .ok ()) :
    ∃ session, side.handed? answer = some session ∧
      session.sending = .ofCipher send ∧ session.receiving = .ofCipher receive ∧ session.config = config := by
  cases hmoves with
  | stepped message => exact absurd hc (message config)
  | handedOut given hestablished _ sending receiving settings =>
    obtain rfl := h.request_inj hc
    cases hs.symm.trans hestablished
    exact ⟨_, given, sending, receiving, settings⟩
  | kept refused =>
    obtain rfl := h.request_inj hc
    rcases refused with hnone | hinvalid
    · cases hs.symm.trans hnone
    · exact absurd hconfig hinvalid
  | broken message => exact absurd hc (message config)

end Lawful

end

/-! ### Runs of calls -/

namespace Lawful

variable {rank : π → Nat} {established : Nat} (h : side.Lawful rank established)
include h

/-- Behind the established phase no session is handed out. -/
theorem sessions_eq_nil {s : σ} (hs : established < rank (side.phase s)) (calls : List κ) :
    side.sessions s calls = [] := by
  induction calls generalizing s with
  | nil => rfl
  | cons c calls ih =>
    have hnone : side.handed? (side.call s c).1 = none := by
      cases hhanded : side.handed? (side.call s c).1 with
      | none => rfl
      | some session =>
        obtain ⟨-, _, -, -, hciphers⟩ := h.handed (h.moves s c) hhanded
        have hrank := h.rank_eq hciphers
        omega
    have hlater : established < rank (side.phase (side.call s c).2) :=
      Nat.lt_of_lt_of_le hs (h.rank_le_of_moves (h.moves s c))
    rw [sessions, hnone, ih hlater]
    rfl

theorem length_sessions_le (s : σ) (calls : List κ) : (side.sessions s calls).length ≤ 1 := by
  induction calls generalizing s with
  | nil => exact Nat.zero_le 1
  | cons c calls ih =>
    rw [sessions]
    cases hhanded : side.handed? (side.call s c).1 with
    | none => exact ih _
    | some session =>
      obtain ⟨hbehind, -⟩ := h.handed (h.moves s c) hhanded
      rw [h.sessions_eq_nil hbehind calls]
      exact Nat.le_refl 1

/-- A handshake that has failed stays so. -/
theorem phase_run_of_failed {s : σ} (hs : side.phase s = side.failed) (calls : List κ) :
    side.phase (side.run s calls) = side.failed := by
  induction calls generalizing s with
  | nil => exact hs
  | cons c calls ih => exact ih (h.ends (h.moves s c) hs).1

/-- Requests that are refused for their settings change nothing. -/
theorem run_refused (s : σ) {refused : List SessionConfig} (hrefused : ∀ config ∈ refused, config.validate ≠ .ok ()) :
    side.run s (refused.map side.request) = s := by
  induction refused with
  | nil => rfl
  | cons config refused ih =>
    obtain ⟨hconfig, hrest⟩ := List.forall_mem_cons.1 hrefused
    have hmoves := h.moves s (side.request config)
    obtain ⟨e, he⟩ := h.refuses hmoves rfl hconfig
    rw [he] at hmoves
    show side.run (side.call s (side.request config)).2 (refused.map side.request) = s
    rw [hmoves.kept_eq rfl]
    exact ih hrest

/-- **An object whose calls do no more than they can is orderly.** -/
theorem orderly (s : σ) : side.Orderly s where
  advances calls c := (h.moves _ c).advances
  breaks calls c e hc he := by
    have hmoves := h.moves (side.run s calls) c
    rw [he] at hmoves
    exact hmoves.breaks hc
  ends calls hfailed later := by
    have hlater := h.phase_run_of_failed hfailed later
    rw [← run_append] at hlater
    exact ⟨hlater, fun c => (h.ends (h.moves _ c) hlater).2⟩
  once calls := h.length_sessions_le s calls
  handed calls c session hhanded := (h.handed (h.moves _ c) hhanded).2
  kept calls config e he := by
    have hmoves := h.moves (side.run s calls) (side.request config)
    rw [he] at hmoves
    exact hmoves.kept_eq rfl
  repeats calls send receive hciphers refused hrefused config hconfig := by
    rw [run_append, h.run_refused _ hrefused]
    exact h.succeeds (h.moves _ _) rfl hciphers hconfig

end Lawful

end Side

end Handshake

/-! ### The initiator -/

namespace Initiator

/-- One step of an initiator on the way to the session. -/
inductive Phase.Next : Phase → Phase → Prop where
  /-- Message 1 is written. -/
  | wrote (ss : SymmetricState) (ephemeral : KeyPair) : Next .uninitialized (.awaitingSecondMessage ss ephemeral)
  /-- Message 2 is accepted. -/
  | accepted (ss : SymmetricState) (ephemeral : KeyPair) (send receive : KeyedCipher) (hash : Digest) (key : Key)
      (certificate : Certificate) :
      Next (.awaitingSecondMessage ss ephemeral) (.established send receive hash key certificate)
  /-- The session is handed out. -/
  | handedOut (send receive : KeyedCipher) (hash : Digest) (key : Key) (certificate : Certificate) :
      Next (.established send receive hash key certificate) .consumed

/-- The ciphers of an established phase. -/
def Phase.ciphers? : Phase → Option (KeyedCipher × KeyedCipher)
  | established send receive _ _ _ => some (send, receive)
  | _ => none

/-- The session in an answer. -/
def Answer.session? : Answer → Option Session
  | session s => some s
  | _ => none

variable (S : Suite)

/-- An initiator as a side of a handshake. -/
def side : Handshake.Side Initiator Phase Call Answer where
  call := call S
  phase := phase
  Next := Phase.Next
  failed := .failed
  ciphers? := Phase.ciphers?
  request := .intoSession
  session? := Answer.session?

variable {S} {i i' : Initiator} {c : Call} {answer : Except Fault Answer}

theorem ciphers?_eq_none {i : Initiator} (h : i.isEstablished = false) : i.phase.ciphers? = none := by
  revert h
  rw [isEstablished]
  cases i.phase <;> simp [Phase.ciphers?]

/-- What a call does to an initiator, it does to a side of a handshake. -/
theorem Moves.side_moves (h : Moves S i c answer i') : (side S).Moves i c answer i' := by
  cases h with
  | wrote begun =>
    refine .stepped (fun _ => nofun) rfl ?_
    show Phase.Next i.phase _
    rw [begun]
    exact .wrote _ _
  | accepted awaiting found =>
    obtain ⟨_, _, _, _, _, rfl⟩ := secondMessage_unused found
    refine .stepped (fun _ => nofun) rfl ?_
    show Phase.Next i.phase _
    rw [awaiting]
    exact .accepted _ _ _ _ _ _ _
  | handedOut established valid =>
    have hciphers : i.phase.ciphers? = some _ := congrArg Phase.ciphers? established
    refine .handedOut rfl hciphers valid rfl rfl rfl ?_
    show Phase.Next i.phase _
    rw [established]
    exact .handedOut _ _ _ _ _
  | kept refused => exact .kept (refused.imp_left ciphers?_eq_none)
  | broken handshake phase => exact .broken handshake phase

theorem side_lawful (S : Suite) : (side S).Lawful Phase.rank 2 where
  moves i c := (call_moves S i c).side_moves
  request_inj := Call.intoSession.inj
  rank_lt := by
    intro p q h
    cases h <;> simp [Phase.rank]
  rank_le p := p.rank_le
  rank_eq := by
    intro p ciphers h
    cases p with
    | established => rfl
    | _ => cases h

end Initiator

/-! ### The responder -/

namespace Responder

/-- One step of a responder on the way to the session. -/
inductive Phase.Next : Phase → Phase → Prop where
  /-- Message 1 is answered. -/
  | answered (send receive : KeyedCipher) (hash : Digest) (first : Bytes) :
      Next .awaitingFirstMessage (.established send receive hash first)
  /-- The session is handed out. -/
  | handedOut (send receive : KeyedCipher) (hash : Digest) (first : Bytes) :
      Next (.established send receive hash first) .consumed

/-- The ciphers of an established phase. -/
def Phase.ciphers? : Phase → Option (KeyedCipher × KeyedCipher)
  | established send receive _ _ => some (send, receive)
  | _ => none

/-- The session in an answer. -/
def Answer.session? : Answer → Option Session
  | session s => some s
  | second _ => none

variable (S : Suite)

/-- A responder as a side of a handshake. -/
def side : Handshake.Side Responder Phase Call Answer where
  call := call S
  phase := phase
  Next := Phase.Next
  failed := .failed
  ciphers? := Phase.ciphers?
  request := .intoSession
  session? := Answer.session?

variable {S} {r r' : Responder} {c : Call} {reply : Except Fault Answer}

theorem ciphers?_eq_none {r : Responder} (h : r.isEstablished = false) : r.phase.ciphers? = none := by
  revert h
  rw [isEstablished]
  cases r.phase <;> simp [Phase.ciphers?]

/-- What a call does to a responder, it does to a side of a handshake. -/
theorem Moves.side_moves (h : Moves S r c reply r') : (side S).Moves r c reply r' := by
  cases h with
  | answered awaiting made =>
    obtain ⟨_, _, _, _, rfl⟩ := answer_unused made
    refine .stepped (fun _ => nofun) rfl ?_
    show Phase.Next r.phase _
    rw [awaiting]
    exact .answered _ _ _ _
  | handedOut established valid =>
    have hciphers : r.phase.ciphers? = some _ := congrArg Phase.ciphers? established
    refine .handedOut rfl hciphers valid rfl rfl rfl ?_
    show Phase.Next r.phase _
    rw [established]
    exact .handedOut _ _ _ _
  | kept refused => exact .kept (refused.imp_left ciphers?_eq_none)
  | broken handshake phase => exact .broken handshake phase

theorem side_lawful (S : Suite) : (side S).Lawful Phase.rank 1 where
  moves r c := (call_moves S r c).side_moves
  request_inj := Call.intoSession.inj
  rank_lt := by
    intro p q h
    cases h <;> simp [Phase.rank]
  rank_le p := p.rank_le
  rank_eq := by
    intro p ciphers h
    cases p with
    | established => rfl
    | _ => cases h

end Responder

/-- **The phases of a handshake are in order**, whatever is called on either side, in whatever order and
from whatever state on. -/
theorem Handshake.phases_in_order (S : Suite) :
    (∀ i : Initiator, (Initiator.side S).Orderly i) ∧ ∀ r : Responder, (Responder.side S).Orderly r := by
  constructor
  · intro i
    exact (Initiator.side_lawful S).orderly i
  · intro r
    exact (Responder.side_lawful S).orderly r

end Stratum
