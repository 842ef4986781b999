import Stratum.Pool.Listener
import Stratum.Proofs.HandshakeAgreement

/-!
# The exit status of a pool without a connection

A pool reports the end of its connection as success, and knows it by the kind of the
fault, which the faults of key files and of the listener share. So the status of a pool
that never had a connection is 0 in some cases and 1 in the others, and this module says
in which.

* `Pool.failsOnIo_start_iff`: starting fails with a fault of this kind if and only if one
  of the files it needs cannot be read or written (`Pool.FileFailure`), where everything
  before that file went well;
* **`Pool.exit_status_without_connection`**: such a pool ends with status 0 exactly after
  one of these failures or one of its listener, and with status 1 after every other: a
  command line with the wrong number of arguments or with wrong ones, a key file that
  holds no key, too little randomness, or a certificate that cannot be issued.

That a status of 0 says there was a connection is therefore refuted, by a key directory
without the authority's key (`Pool.not_exit_one_without_connection`).
-/

namespace Stratum

/-! ### Key files -/

namespace KeyFile

variable {path : Path} {files : FileStore} {cause : Fault}

theorem kind_of_parse {content : Bytes} (h : parse content = .error cause) :
    cause.kind = .invalidArgument := by
  unfold parse Key.ofPrivateBytes at h
  split at h
  · cases h
    rfl
  · split at h
    · cases h
    · cases h
      rfl

/-- A key file fails as a file if and only if it cannot be read. -/
theorem load_ioError_iff : (∃ cause, load path files = .error cause ∧ cause.kind = .ioError) ↔
    files.read? path = none := by
  unfold load
  cases files.read? path with
  | none => simp [Fault.kind, KeyFault.kind]
  | some content =>
    constructor
    · rintro ⟨cause, hparse, hkind⟩
      rw [kind_of_parse hparse] at hkind
      cases hkind
    · intro h
      cases h

theorem saveSecret_eq_error_iff {key : Bytes} : saveSecret path key files = .error cause ↔
    files.writeSecret? path (text key) = none ∧ cause = .key .secretFileWrite := by
  unfold saveSecret
  cases files.writeSecret? path (text key) <;> simp [eq_comm]

theorem saveSecret_eq_ok_iff {key : Bytes} {files' : FileStore} :
    saveSecret path key files = .ok files' ↔ files.writeSecret? path (text key) = some files' := by
  unfold saveSecret
  cases files.writeSecret? path (text key) <;> simp

theorem save_eq_error_iff {key : Bytes} : save path key files = .error cause ↔
    files.write? path (text key) = none ∧ cause = .key .fileWrite := by
  unfold save
  cases files.write? path (text key) <;> simp [eq_comm]

end KeyFile

/-! ### Settings -/

/-- A computation fails for its settings only. -/
def FailsOnSettings {α : Type} (x : Except Fault α) : Prop :=
  ∀ cause, x = .error cause → cause.kind = .invalidConfig

section Settings

variable {α β : Type}

theorem failsOnSettings_pure (a : α) : FailsOnSettings (pure a) := by
  intro cause h
  cases h

theorem FailsOnSettings.bind {x : Except Fault α} {f : α → Except Fault β} (hx : FailsOnSettings x)
    (hf : ∀ a, FailsOnSettings (f a)) : FailsOnSettings (x >>= f) := by
  intro cause h
  obtain hfirst | ⟨a, -, hsecond⟩ := Attempt.bind_eq_error_iff.1 h
  · exact hx cause hfirst
  · exact hf a cause hsecond

theorem failsOnSettings_unless {reason : ConfigFault} {ok : Bool} :
    FailsOnSettings (reason.unless ok) := by
  intro cause h
  unfold ConfigFault.unless at h
  split at h
  · cases h
  · cases h
    rfl

theorem failsOnSettings_parsePositive {reason : ConfigFault} {max : Nat} {text : Bytes} :
    FailsOnSettings (parsePositive reason max text) := by
  intro cause h
  unfold parsePositive at h
  split at h
  · split at h
    · cases h
    · cases h
      rfl
  · cases h
    rfl

end Settings

/-! ### Steps on a host -/

namespace Host

variable {α : Type} {host host' : Host} {cause : Fault}

theorem reading_eq_ok_iff {x : FileStore → Except Fault α} {a : α} :
    reading x host = .ok a host' ↔ x host.files = .ok a ∧ host' = host := by
  unfold reading
  cases x host.files <;> simp [eq_comm]

theorem reading_eq_error_iff {x : FileStore → Except Fault α} :
    reading x host = .error cause host' ↔ x host.files = .error cause ∧ host' = host := by
  unfold reading
  cases x host.files <;> simp [eq_comm]

theorem writing_eq_ok_iff {x : FileStore → Except Fault FileStore} :
    writing x host = .ok () host' ↔ ∃ files, x host.files = .ok files ∧ host' = { host with files } := by
  unfold writing
  cases x host.files <;> simp [eq_comm]

theorem writing_eq_error_iff {x : FileStore → Except Fault FileStore} :
    writing x host = .error cause host' ↔ x host.files = .error cause ∧ host' = host := by
  unfold writing
  cases x host.files <;> simp [eq_comm]

end Host

/-- A step fails with a fault of a file or a socket. -/
def Step.FailsOnIo {σ α : Type} (x : EStateM Fault σ α) (s : σ) : Prop :=
  ∃ cause s', x s = .error cause s' ∧ cause.kind = .ioError

namespace Step

variable {σ α β : Type} {x : EStateM Fault σ α} {f : α → EStateM Fault σ β} {s : σ}

theorem failsOnIo_bind_iff :
    FailsOnIo (x >>= f) s ↔ FailsOnIo x s ∨ ∃ a s', x s = .ok a s' ∧ FailsOnIo (f a) s' := by
  constructor
  · rintro ⟨cause, s', h, hkind⟩
    obtain hfirst | ⟨a, s₁, ha, hsecond⟩ := bind_eq_error_iff.1 h
    · exact .inl ⟨cause, s', hfirst, hkind⟩
    · exact .inr ⟨a, s₁, ha, cause, s', hsecond, hkind⟩
  · rintro (⟨cause, s', h, hkind⟩ | ⟨a, s₁, ha, cause, s', h, hkind⟩)
    · exact ⟨cause, s', bind_of_error h, hkind⟩
    · refine ⟨cause, s', ?_, hkind⟩
      rw [bind_of_ok ha, h]

theorem failsOnIo_get_bind {f : σ → EStateM Fault σ β} : FailsOnIo (get >>= f) s ↔ FailsOnIo (f s) s :=
  Iff.rfl

theorem not_failsOnIo_pure (a : α) : ¬ FailsOnIo (pure a : EStateM Fault σ α) s := by
  rintro ⟨cause, s', h, -⟩
  cases h

theorem failsOnIo_throw_iff {cause : Fault} :
    FailsOnIo (throw cause : EStateM Fault σ α) s ↔ cause.kind = .ioError := by
  constructor
  · rintro ⟨cause', s', h, hkind⟩
    cases h
    exact hkind
  · intro hkind
    exact ⟨cause, s, rfl, hkind⟩

end Step

/-! ### The faults of a pool that starts -/

/-- Keys are made unless randomness is lacking, which is no fault of a file. -/
theorem KeyPair.kind_of_generate {S : Suite} {entropy rest : Entropy} {cause : Fault}
    (h : KeyPair.generate S entropy = .error cause rest) : cause.kind = .cryptoFailure := by
  obtain hkey | ⟨_, _, -, hpure⟩ := Step.bind_eq_error_iff.1 h
  · obtain hdraw | ⟨_, _, -, hpure⟩ := Step.bind_eq_error_iff.1 hkey
    · unfold Random.draw at hdraw
      dsimp only at hdraw
      split at hdraw
      · cases hdraw
      · cases hdraw
        rfl
    · cases hpure
  · cases hpure

theorem KeyPair.ofStaticBytes_toBytes (S : Suite) (key : Key) :
    KeyPair.ofStaticBytes S key.toBytes =
      if key = FixedBytes.replicate 32 0 then .error (.key .staticZero) else .ok (.ofPrivate S key) := by
  have hkey : Key.ofPrivateBytes .staticLength key.toBytes = .ok key := by
    rw [Key.ofPrivateBytes, FixedBytes.ofBytes?_toBytes]
  rw [ofStaticBytes, Attempt.bind_of_ok hkey]
  split <;> rfl

/-- A certificate that is not issued is refused for its settings or for its window. -/
theorem CertificateMessage.kind_of_issue {S : Suite} {authority : AuthorityKeyPair} {staticKey : Key}
    {config : CertificateConfig} {now : UInt32} {cause : Fault}
    (h : issue S authority staticKey config now = .error cause) :
    cause.kind = .invalidConfig ∨ cause.kind = .invalidArgument := by
  obtain hvalidate | ⟨_, -, hrest⟩ := Attempt.bind_eq_error_iff.1 h
  · exact .inl (failsOnSettings_unless cause hvalidate)
  · right
    obtain hmake | ⟨_, -, hpure⟩ := Attempt.bind_eq_error_iff.1 hrest
    · unfold Certificate.make at hmake
      split at hmake
      · cases hmake
      · cases hmake
        rfl
    · cases hpure

namespace Pool

open Step

variable {S : Suite} {c : PoolConfig} {host : Host}

/-- The file of the pool's own key fails: it is there and cannot be read, or a new key cannot be
written to it or, as the public key, beside it. -/
inductive StaticFileFailure (S : Suite) (c : PoolConfig) (host : Host) : Prop where
  /-- The file is there, but cannot be read. -/
  | unreadable (present : (host.files.find? (staticPath c)).isSome)
      (unread : host.files.read? (staticPath c) = none)
  /-- A new secret key is made, but cannot be written. -/
  | secretUnwritable (absent : ¬ (host.files.find? (staticPath c)).isSome)
      (entropy : 32 ≤ host.entropy.length)
      (unwritten : host.files.writeSecret? (staticPath c)
        (KeyFile.text (KeyPair.ofEntropy S host.entropy).privateKey.toBytes) = none)
  /-- A new secret key is written, but its public key cannot be. -/
  | publicUnwritable {files : FileStore} (absent : ¬ (host.files.find? (staticPath c)).isSome)
      (entropy : 32 ≤ host.entropy.length)
      (written : host.files.writeSecret? (staticPath c)
        (KeyFile.text (KeyPair.ofEntropy S host.entropy).privateKey.toBytes) = some files)
      (unwritten : files.write? (staticPublicPath c)
        (KeyFile.text (KeyPair.ofEntropy S host.entropy).publicKey.toBytes) = none)

/-- A file that a pool needs to start fails: the authority's key cannot be read, or, where it holds a
key, the file of the pool's own key fails. -/
inductive FileFailure (S : Suite) (c : PoolConfig) (host : Host) : Prop where
  /-- The file of the authority's key is missing or cannot be read. -/
  | authorityUnreadable (unread : host.files.read? (authorityPath c) = none)
  /-- The authority's key is read, but the pool's own key has no file. -/
  | static {key : Key} (authority : KeyFile.load (authorityPath c) host.files = .ok key)
      (failure : StaticFileFailure S c host)

theorem failsOnIo_load_iff {path : Path} :
    FailsOnIo (Host.reading (KeyFile.load path)) host ↔ host.files.read? path = none := by
  rw [← KeyFile.load_ioError_iff]
  constructor
  · rintro ⟨cause, host', h, hkind⟩
    exact ⟨cause, (Host.reading_eq_error_iff.1 h).1, hkind⟩
  · rintro ⟨cause, h, hkind⟩
    exact ⟨cause, host, Host.reading_eq_error_iff.2 ⟨h, rfl⟩, hkind⟩

theorem failsOnIo_saveSecret_iff {path : Path} {key : Bytes} :
    FailsOnIo (Host.writing (KeyFile.saveSecret path key)) host ↔
      host.files.writeSecret? path (KeyFile.text key) = none := by
  constructor
  · rintro ⟨cause, host', h, -⟩
    exact (KeyFile.saveSecret_eq_error_iff.1 (Host.writing_eq_error_iff.1 h).1).1
  · intro h
    exact ⟨_, host, Host.writing_eq_error_iff.2 ⟨KeyFile.saveSecret_eq_error_iff.2 ⟨h, rfl⟩, rfl⟩, rfl⟩

theorem failsOnIo_save_iff {path : Path} {key : Bytes} :
    FailsOnIo (Host.writing (KeyFile.save path key)) host ↔
      host.files.write? path (KeyFile.text key) = none := by
  constructor
  · rintro ⟨cause, host', h, -⟩
    exact (KeyFile.save_eq_error_iff.1 (Host.writing_eq_error_iff.1 h).1).1
  · intro h
    exact ⟨_, host, Host.writing_eq_error_iff.2 ⟨KeyFile.save_eq_error_iff.2 ⟨h, rfl⟩, rfl⟩, rfl⟩

theorem not_failsOnIo_generate : ¬ FailsOnIo (Host.drawing (KeyPair.generate S)) host := by
  rintro ⟨cause, host', h, hkind⟩
  obtain ⟨rest, hgenerate, -⟩ := Step.onPart_eq_error_iff.1 h
  rw [KeyPair.kind_of_generate hgenerate] at hkind
  cases hkind

/-- The pool's own key fails on a file in these ways and in no other. -/
theorem failsOnIo_staticKeys_iff : FailsOnIo (staticKeys S c) host ↔ StaticFileFailure S c host := by
  unfold staticKeys
  rw [failsOnIo_get_bind]
  by_cases hpresent : (host.files.find? (staticPath c)).isSome = true
  · rw [if_pos hpresent, failsOnIo_bind_iff, failsOnIo_load_iff]
    constructor
    · rintro (hunread | ⟨key, host', hload, hfails⟩)
      · exact .unreadable hpresent hunread
      · rw [KeyPair.ofStaticBytes_toBytes] at hfails
        by_cases hzero : key = FixedBytes.replicate 32 0
        · rw [if_pos hzero] at hfails
          cases failsOnIo_throw_iff.1 hfails
        · rw [if_neg hzero] at hfails
          exact absurd hfails (not_failsOnIo_pure _)
    · intro h
      cases h with
      | unreadable _ hunread => exact .inl hunread
      | secretUnwritable habsent => exact absurd hpresent habsent
      | publicUnwritable habsent => exact absurd hpresent habsent
  · rw [if_neg hpresent]
    simp only [failsOnIo_bind_iff, failsOnIo_saveSecret_iff, failsOnIo_save_iff,
      not_failsOnIo_generate, not_failsOnIo_pure, and_false, exists_false, or_false, false_or]
    constructor
    · rintro ⟨pair, host₁, hgenerate, hfails⟩
      obtain ⟨rest, hpair, rfl⟩ := Step.onPart_eq_ok_iff.1 hgenerate
      obtain ⟨hentropy, rfl, rfl⟩ := KeyPair.generate_eq_ok_iff.1 hpair
      obtain hunwritten | ⟨_, host₂, hsaved, hunwritten⟩ := hfails
      · exact .secretUnwritable hpresent hentropy hunwritten
      · obtain ⟨files, hwritten, rfl⟩ := Host.writing_eq_ok_iff.1 hsaved
        exact .publicUnwritable hpresent hentropy (KeyFile.saveSecret_eq_ok_iff.1 hwritten) hunwritten
    · intro h
      cases h with
      | unreadable hthere => exact absurd hthere hpresent
      | secretUnwritable _ hentropy hunwritten =>
        exact ⟨_, _, Step.onPart_eq_ok_iff.2 ⟨_, KeyPair.generate_eq_ok_iff.2 ⟨hentropy, rfl, rfl⟩, rfl⟩,
          .inl hunwritten⟩
      | publicUnwritable _ hentropy hwritten hunwritten =>
        refine ⟨_, _, Step.onPart_eq_ok_iff.2 ⟨_, KeyPair.generate_eq_ok_iff.2 ⟨hentropy, rfl, rfl⟩, rfl⟩,
          .inr ⟨(), _, Host.writing_eq_ok_iff.2 ⟨_, KeyFile.saveSecret_eq_ok_iff.2 hwritten, rfl⟩, ?_⟩⟩
        exact hunwritten

/-- **Starting fails on a file exactly where a file that is needed fails.** -/
theorem failsOnIo_start_iff (now : UInt32) : FailsOnIo (start S c now) host ↔ FileFailure S c host := by
  unfold start
  rw [failsOnIo_bind_iff, failsOnIo_load_iff]
  constructor
  · rintro (hunread | ⟨key, host', hload, hfails⟩)
    · exact .authorityUnreadable hunread
    obtain ⟨hkey, rfl⟩ := Host.reading_eq_ok_iff.1 hload
    obtain hstatic | ⟨pair, host₁, -, hcertifies⟩ := failsOnIo_bind_iff.1 hfails
    · exact .static hkey (failsOnIo_staticKeys_iff.1 hstatic)
    -- A certificate is refused for other reasons.
    · split at hcertifies
      · exact absurd hcertifies (not_failsOnIo_pure _)
      · rename_i cause hcertificate
        have hkind := failsOnIo_throw_iff.1 hcertifies
        obtain h | h := CertificateMessage.kind_of_issue hcertificate
        · cases h.symm.trans hkind
        · cases h.symm.trans hkind
  · intro h
    cases h with
    | authorityUnreadable hunread => exact .inl hunread
    | static hkey hstatic =>
      refine .inr ⟨_, host, Host.reading_eq_ok_iff.2 ⟨hkey, rfl⟩, failsOnIo_bind_iff.2 (.inl ?_)⟩
      exact failsOnIo_staticKeys_iff.2 hstatic

/-! ### The exit status -/

/-- The settings that a command line gives, if it has three or four arguments. -/
inductive Configures : List Bytes → Except Fault PoolConfig → Prop where
  /-- The validity is the usual one. -/
  | three (bindHost port keysDir : Bytes) :
    Configures [bindHost, port, keysDir] (configOf bindHost port keysDir none)
  /-- The validity is given too. -/
  | four (bindHost port keysDir validity : Bytes) :
    Configures [bindHost, port, keysDir, validity] (configOf bindHost port keysDir (some validity))

theorem Configures.launch_eq {args : List Bytes} {config : Except Fault PoolConfig}
    (h : Configures args config) (S : Suite) (now : UInt32) (host : Host) :
    launch S args now host = startWith S config now host := by
  cases h with
  | three => rfl
  | four => rfl

theorem configures_or (args : List Bytes) : (∃ config, Configures args config) ∨
    ∀ S now host, launch S args now host = (.ended (.usage usage), host) := by
  match args with
  | [] => exact .inr fun _ _ _ => rfl
  | [_] => exact .inr fun _ _ _ => rfl
  | [_, _] => exact .inr fun _ _ _ => rfl
  | [_, _, _] => exact .inl ⟨_, .three _ _ _⟩
  | [_, _, _, _] => exact .inl ⟨_, .four _ _ _ _⟩
  | _ :: _ :: _ :: _ :: _ :: _ => exact .inr fun _ _ _ => rfl

/-- Wrong settings are a fault of their own kind. -/
theorem failsOnSettings_configOf (bindHost port keysDir : Bytes) (validity : Option Bytes) :
    FailsOnSettings (configOf bindHost port keysDir validity) := by
  have hvalidated (config : PoolConfig) :
      FailsOnSettings (do config.validate; return config) := by
    refine FailsOnSettings.bind ?_ fun _ => failsOnSettings_pure _
    exact failsOnSettings_unless.bind fun _ => failsOnSettings_unless.bind fun _ =>
      failsOnSettings_unless.bind fun _ => failsOnSettings_unless.bind fun _ => failsOnSettings_unless
  refine (failsOnSettings_parsePositive.bind fun _ => failsOnSettings_pure _).bind fun port => ?_
  cases validity with
  | none => exact hvalidated _
  | some text =>
    exact (failsOnSettings_parsePositive.bind fun _ => failsOnSettings_pure _).bind fun _ => hvalidated _

theorem Configures.kind_eq {args : List Bytes} {cause : Fault} (h : Configures args (.error cause)) :
    cause.kind = .invalidConfig := by
  generalize hconfig : (Except.error cause : Except Fault PoolConfig) = config at h
  cases h with
  | three => exact failsOnSettings_configOf _ _ _ _ cause hconfig.symm
  | four => exact failsOnSettings_configOf _ _ _ _ cause hconfig.symm

/-- The listener of a pool fails: it starts, and then has no connection. -/
def ListenFailure (S : Suite) (c : PoolConfig) (now : UInt32) (host : Host) (n : Network) : Prop :=
  ∃ responder host' cause, start S c now host = .ok responder host' ∧
    n.acceptOne c.bindHost c.port = some (.error cause)

theorem exitStatus_eq_zero_iff {cause : Fault} : exitStatus cause = 0 ↔ cause.kind = .ioError := by
  unfold exitStatus
  split
  · simp_all
  · simp_all

/-- The pool that a command line configures ends without a connection if it does not start, or has no
listener, and tells by its status whether a file or a socket was the reason. -/
theorem endUnconnected_of_configures {args : List Bytes} {config : PoolConfig}
    (h : Configures args (.ok config)) {now : UInt32} {n : Network} :
    (∃ o, endUnconnected S args now host n = some o ∧ o.exit = 0) ↔
      FileFailure S config host ∨ ListenFailure S config now host n := by
  rw [← failsOnIo_start_iff now]
  unfold endUnconnected
  rw [h.launch_eq, startWith]
  cases hstart : start S config now host with
  | error cause host' =>
    have hnever : ¬ ListenFailure S config now host n := by
      rintro ⟨_, _, _, hok, -⟩
      cases hstart.symm.trans hok
    constructor
    · rintro ⟨o, ho, hexit⟩
      cases ho
      exact .inl ⟨cause, host', hstart, exitStatus_eq_zero_iff.1 hexit⟩
    · rintro (⟨_, _, hfails, hkind⟩ | hlisten)
      · cases hstart.symm.trans hfails
        exact ⟨_, rfl, exitStatus_eq_zero_iff.2 hkind⟩
      · exact absurd hlisten hnever
  | ok responder host' =>
    have hstarts : ¬ FailsOnIo (start S config now) host := by
      rintro ⟨_, _, hfails, -⟩
      cases hstart.symm.trans hfails
    constructor
    · rintro ⟨o, ho, -⟩
      dsimp only at ho
      split at ho
      · rename_i cause haccept
        exact .inr ⟨responder, host', cause, hstart, haccept⟩
      · cases ho
      · cases ho
    · rintro (hfails | ⟨_, _, cause, -, haccept⟩)
      · exact absurd hfails hstarts
      · dsimp only
        rw [haccept]
        exact ⟨_, rfl, rfl⟩

theorem exitStatus_eq_zero_or_one (cause : Fault) : exitStatus cause = 0 ∨ exitStatus cause = 1 := by
  unfold exitStatus
  split
  · exact .inl rfl
  · exact .inr rfl

theorem exit_of_launch {args : List Bytes} {now : UInt32} {o : Outcome}
    (h : (launch S args now host).1 = .ended o) : o.exit = 0 ∨ o.exit = 1 := by
  obtain ⟨config, hconfig⟩ | husage := configures_or args
  · rw [hconfig.launch_eq] at h
    unfold startWith at h
    split at h
    · cases h
      exact exitStatus_eq_zero_or_one _
    · split at h
      · cases h
      · cases h
        exact exitStatus_eq_zero_or_one _
  · rw [husage] at h
    cases h
    exact .inr rfl

theorem exit_of_endUnconnected {args : List Bytes} {now : UInt32} {n : Network} {o : Outcome}
    (h : endUnconnected S args now host n = some o) : o.exit = 0 ∨ o.exit = 1 := by
  unfold endUnconnected at h
  split at h
  · rename_i hlaunch
    cases h
    exact exit_of_launch hlaunch
  · split at h
    · cases h
      exact .inl rfl
    · cases h
    · cases h

/-- **A pool without a connection ends with status 0 exactly if a key file or the listener failed**, and
with status 1 otherwise. -/
theorem exit_status_without_connection (S : Suite) (args : List Bytes) (now : UInt32) (host : Host)
    (n : Network) :
    ((∃ o, endUnconnected S args now host n = some o ∧ o.exit = 0) ↔
      ∃ config, Configures args (.ok config) ∧
        (FileFailure S config host ∨ ListenFailure S config now host n)) ∧
    ∀ o, endUnconnected S args now host n = some o → o.exit = 0 ∨ o.exit = 1 := by
  refine ⟨⟨?_, ?_⟩, fun o => exit_of_endUnconnected⟩
  · rintro ⟨o, ho, hexit⟩
    obtain ⟨config, hconfig⟩ | husage := configures_or args
    · cases config with
      | error cause =>
        -- Settings are refused before any file is looked at.
        have hend : endUnconnected S args now host n = some { exit := exitStatus cause } := by
          rw [endUnconnected, hconfig.launch_eq]
          rfl
        cases hend.symm.trans ho
        cases (exitStatus_eq_zero_iff.1 hexit).symm.trans hconfig.kind_eq
      | ok config => exact ⟨config, hconfig, (endUnconnected_of_configures hconfig).1 ⟨o, ho, hexit⟩⟩
    · have hend : endUnconnected S args now host n = some (.usage usage) := by
        rw [endUnconnected, husage]
      cases hend.symm.trans ho
      cases hexit
  · rintro ⟨config, hconfig, h⟩
    exact (endUnconnected_of_configures hconfig).2 h

/-- A status of 0 does not say that there was a connection: without the file of the authority's key the
pool ends with it before it listens. -/
theorem not_exit_one_without_connection :
    ¬ ∀ args now host n o, endUnconnected Suite.standard args now host n = some o → o.exit = 1 := by
  intro h
  have hend : endUnconnected Suite.standard
      [Utf8.ofString "0.0.0.0", Utf8.ofString "3336", Utf8.ofString "keys"] 1700000000
      { files := .empty ["work"] } {} = some { exit := 0 } := by
    decide +kernel
  cases h _ _ _ _ _ hend

end Pool

end Stratum
