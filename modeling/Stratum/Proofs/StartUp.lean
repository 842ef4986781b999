import Stratum.Proofs.StartUpFailures

/-!
# How a pool gets ready

Where the files that a pool needs are as they should be, the pool starts. Its own key pair
is read from its file, or made and written; so the second of two files is written to a
store that is no longer the one the pool has found.

* `FileStore.Writable` says that a file can be written at the end of a path, and
  `FileStore.Writable.of_put`: writing one file does not make another path unwritable.
* `Pool.HasKeys`: the two ways to have a key pair.
* **`Pool.launch_ready`**: a pool with a key pair, whose authority's key loads and issues
  the certificate, is ready.
-/

namespace Stratum

/-! ### Writing files -/

namespace FileStore

variable {files : FileStore} {place : Place} {path path' : Path} {content : Bytes} {mode : Mode}

/-- A file can be written at the end of a path: the path leads to a place, and no directory is there. -/
def Writable (files : FileStore) (path : Path) : Prop :=
  ∃ place, files.locate path = some place ∧ files.isDirectory place = false

/-- Where a file is put, and everywhere else, there is a directory if there was one before. -/
theorem isDirectory_put (h : files.isDirectory place = false) (other : Place) :
    (files.put place (.file content mode)).isDirectory other = files.isDirectory other := by
  -- the root is a directory, so that no file is put there
  have hroot : place ≠ [] := by
    rintro rfl
    cases h
  unfold isDirectory at h ⊢
  rw [node?_put files _ other hroot]
  by_cases hother : other = place
  · subst hother
    rw [if_pos rfl, h]
  · rw [if_neg hother]

/-- A path leads where it has led as long as the directories are the same. -/
theorem follow_congr {files' : FileStore} (h : ∀ other, files'.isDirectory other = files.isDirectory other)
    (place : Place) (names : List Bytes) : files'.follow place names = files.follow place names := by
  induction names generalizing place with
  | nil => rfl
  | cons name names ih =>
    unfold follow
    rw [h, ih, ih, ih]

/-- So a path leads to the same place after a file was put somewhere. -/
theorem locate_put (hplace : files.isDirectory place = false) (path : Path) :
    (files.put place (.file content mode)).locate path = files.locate path := by
  unfold locate
  dsimp only
  rw [follow_congr (isDirectory_put hplace)]
  rfl

/-- **Putting a file at one place leaves other paths writable**, and this one too. -/
theorem Writable.of_put (hplace : files.isDirectory place = false) (h : files.Writable path) :
    (files.put place (.file content mode)).Writable path := by
  obtain ⟨target, hlocate, hfree⟩ := h
  exact ⟨target, (locate_put hplace path).trans hlocate, (isDirectory_put hplace target).trans hfree⟩

/-- A file is written where it can be. -/
theorem Writable.write (h : files.Writable path) (content : Bytes) :
    ∃ files', files.write? path content = some files' := by
  obtain ⟨place, hlocate, hfree⟩ := h
  unfold isDirectory at hfree
  unfold write?
  rw [hlocate]
  dsimp only [Option.bind_eq_bind, Option.bind_some]
  split
  · rename_i hnode
    rw [hnode] at hfree
    cases hfree
  · exact ⟨_, rfl⟩
  · exact ⟨_, rfl⟩

/-- So is a secret file, and what was writable before still is. -/
theorem Writable.writeSecret (h : files.Writable path) (content : Bytes) :
    ∃ files', files.writeSecret? path content = some files' ∧
      ∀ other, files.Writable other → files'.Writable other := by
  obtain ⟨place, hlocate, hfree⟩ := h
  have hput (other : Path) (hother : files.Writable other) :
      (files.put place (.file content .secret)).Writable other := hother.of_put hfree
  unfold isDirectory at hfree
  unfold writeSecret?
  rw [hlocate]
  dsimp only [Option.bind_eq_bind, Option.bind_some]
  split
  · rename_i hnode
    rw [hnode] at hfree
    cases hfree
  · exact ⟨_, rfl, hput⟩

end FileStore

/-! ### Starting -/

namespace Pool

variable {S : Suite} {c : PoolConfig} {host host' : Host} {pair : KeyPair} {rest : Entropy}

/-- A pool has a key pair, and random bytes are left: the pair is in its file, or there is no such file, the random
bytes suffice to make one, and both of its files can be written. -/
inductive HasKeys (S : Suite) (c : PoolConfig) (host : Host) : KeyPair → Entropy → Prop where
  /-- The file of the secret key loads. -/
  | loaded {key : Key} {pair : KeyPair} (load : KeyFile.load (staticPath c) host.files = .ok key)
    (usable : KeyPair.ofStaticBytes S key.toBytes = .ok pair) : HasKeys S c host pair host.entropy
  /-- A pair is made. -/
  | made (absent : host.files.find? (staticPath c) = none) (entropy : 32 ≤ host.entropy.length)
    (secretFile : host.files.Writable (staticPath c)) (publicFile : host.files.Writable (staticPublicPath c)) :
    HasKeys S c host (.ofEntropy S host.entropy) (host.entropy.drop 32)

/-- A file that loads is there. -/
theorem isSome_find?_of_load {path : Path} {files : FileStore} {key : Key}
    (h : KeyFile.load path files = .ok key) : (files.find? path).isSome = true := by
  unfold KeyFile.load FileStore.read? at h
  cases hfind : files.find? path with
  | none =>
    rw [hfind] at h
    cases h
  | some node => rfl

theorem staticKeys_ready (h : HasKeys S c host pair rest) :
    ∃ host', staticKeys S c host = .ok pair host' ∧ host'.entropy = rest := by
  unfold staticKeys
  rw [Step.get_bind]
  cases h with
  | @loaded key pair load usable =>
    rw [if_pos (isSome_find?_of_load load)]
    refine ⟨host, (Step.bind_of_ok (Host.reading_eq_ok_iff.2 ⟨load, rfl⟩)).trans ?_, rfl⟩
    rw [usable]
    rfl
  | made absent entropy secretFile publicFile =>
    have hmissing : ¬ (host.files.find? (staticPath c)).isSome = true := by
      rw [absent]
      exact Bool.false_ne_true
    rw [if_neg hmissing]
    obtain ⟨files, hsecret, hkept⟩ :=
      secretFile.writeSecret (KeyFile.text (KeyPair.ofEntropy S host.entropy).privateKey.toBytes)
    obtain ⟨files', hpublic⟩ := (hkept _ publicFile).write
      (KeyFile.text (KeyPair.ofEntropy S host.entropy).publicKey.toBytes)
    have hgenerate : Host.drawing (KeyPair.generate S) host
        = .ok (.ofEntropy S host.entropy) { host with entropy := host.entropy.drop 32 } :=
      Step.onPart_eq_ok_iff.2 ⟨_, KeyPair.generate_eq_ok_iff.2 ⟨entropy, rfl, rfl⟩, rfl⟩
    have hsave : KeyFile.save (staticPublicPath c) (KeyPair.ofEntropy S host.entropy).publicKey.toBytes files
        = .ok files' := by
      unfold KeyFile.save
      rw [hpublic]
    have hwriteSecret : Host.writing (KeyFile.saveSecret (staticPath c)
          (KeyPair.ofEntropy S host.entropy).privateKey.toBytes) { host with entropy := host.entropy.drop 32 }
        = .ok () { files, entropy := host.entropy.drop 32 } :=
      Host.writing_eq_ok_iff.2 ⟨files, KeyFile.saveSecret_eq_ok_iff.2 hsecret, rfl⟩
    have hwritePublic : Host.writing (KeyFile.save (staticPublicPath c)
          (KeyPair.ofEntropy S host.entropy).publicKey.toBytes) { files, entropy := host.entropy.drop 32 }
        = .ok () { files := files', entropy := host.entropy.drop 32 } :=
      Host.writing_eq_ok_iff.2 ⟨files', hsave, rfl⟩
    refine ⟨{ files := files', entropy := host.entropy.drop 32 }, (Step.bind_of_ok hgenerate).trans ?_, rfl⟩
    exact (Step.bind_of_ok hwriteSecret).trans ((Step.bind_of_ok hwritePublic).trans rfl)

/-- **Starting a pool**: the authority's key is read, the pool gets its own, and its certificate is issued. -/
theorem start_eq_ok_iff {now : UInt32} {responder : Responder} :
    start S c now host = .ok responder host' ↔ ∃ key pair certificate,
      KeyFile.load (authorityPath c) host.files = .ok key ∧ staticKeys S c host = .ok pair host' ∧
      CertificateMessage.issue S (.ofPrivate S key) pair.publicKey c.certificate now = .ok certificate ∧
      responder = { staticKeys := pair, certificate, phase := .awaitingFirstMessage } := by
  unfold start
  constructor
  · intro h
    obtain ⟨key, host₁, hread, hrest⟩ := Step.bind_eq_ok_iff.1 h
    obtain ⟨hload, rfl⟩ := Host.reading_eq_ok_iff.1 hread
    obtain ⟨pair, host₂, hstatic, hcertify⟩ := Step.bind_eq_ok_iff.1 hrest
    cases hissue : CertificateMessage.issue S (.ofPrivate S key) pair.publicKey c.certificate now with
    | ok certificate =>
      rw [hissue] at hcertify
      cases hcertify
      exact ⟨key, pair, certificate, hload, hstatic, hissue, rfl⟩
    | error cause =>
      rw [hissue] at hcertify
      cases hcertify
  · rintro ⟨key, pair, certificate, hload, hstatic, hissue, rfl⟩
    refine (Step.bind_of_ok (Host.reading_eq_ok_iff.2 ⟨hload, rfl⟩)).trans ?_
    refine (Step.bind_of_ok hstatic).trans ?_
    rw [hissue]
    rfl

/-- **A pool that has its keys is ready**, with the certificate that the authority issues. -/
theorem launch_ready {args : List Bytes} {now : UInt32} {key : Key} {certificate : CertificateMessage}
    (hconfig : Configures args (.ok c)) (hauthority : KeyFile.load (authorityPath c) host.files = .ok key)
    (hkeys : HasKeys S c host pair rest)
    (hissue : CertificateMessage.issue S (.ofPrivate S key) pair.publicKey c.certificate now = .ok certificate) :
    ∃ host', launch S args now host
        = (.ready c { staticKeys := pair, certificate, phase := .awaitingFirstMessage }, host') ∧
      host'.entropy = rest := by
  obtain ⟨host', hstatic, hentropy⟩ := staticKeys_ready hkeys
  refine ⟨host', ?_, hentropy⟩
  have hstart := start_eq_ok_iff.2 ⟨key, pair, certificate, hauthority, hstatic, hissue, rfl⟩
  rw [hconfig.launch_eq, startWith, hstart]

end Pool

end Stratum
