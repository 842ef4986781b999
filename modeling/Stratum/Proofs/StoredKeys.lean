import Stratum.Keygen
import Stratum.Proofs.Base58Bijection
import Stratum.Proofs.CertificateWindow
import Stratum.Proofs.StartUp

/-!
# Stored keys come back

A key is kept as a line of base 58 text, and read back from whatever the file then holds. That a key comes
back unchanged rests on three things, which this module puts together.

* A store gives back what was written, and what is written next to it is somewhere else:
  `FileStore.Wrote.read?_eq`, `FileStore.Wrote.find?_other`, and for two files of one directory
  `FileStore.locate_join_ne`. A path that holds a zero byte ends there, so the name of the directory has to
  have none.
* The text of a key is read as that key, and so is the text between blanks, and nothing else is
  (`KeyFile.parse_eq_ok_iff`).
* A pool that makes its key pair has it again on the next start, which refuses the key of all zeros and so must
  never meet it (`Pool.staticKeys_again`); and the two files of `Keygen.make` fit each other
  (`Keygen.load_of_make`).

**`stored_keys_come_back`** says all of it, of every suite that never makes the key of all zeros; that the
suite of the protocol does not is `X25519.clamp_ne_zero`.
-/

namespace Stratum

/-! ### Paths -/

namespace Path

theorem names_ne_nil (path : Path) : names path ≠ [] := by
  cases path with
  | nil => exact List.cons_ne_nil _ _
  | cons b path =>
    unfold names
    split
    · exact List.cons_ne_nil _ _
    · split
      · exact List.cons_ne_nil _ _
      · exact List.cons_ne_nil _ _

/-- The names of a path that leads on from another one come behind its names. -/
theorem names_append (path rest : Path) : names (path ++ slash :: rest) = names path ++ names rest := by
  induction path with
  | nil => exact if_pos rfl
  | cons b path ih =>
    rw [List.cons_append, names, names, ih]
    by_cases hb : b = slash
    · rw [if_pos hb, if_pos hb]
      rfl
    · rw [if_neg hb, if_neg hb]
      cases hnames : names path with
      | nil => exact absurd hnames (names_ne_nil path)
      | cons name names => rfl

/-- A name that a file can have: there is no slash and no zero byte in it, and it is not the directory itself
or the one above. -/
structure IsFileName (name : Bytes) : Prop where
  /-- It is one name. -/
  names_eq : names name = [name]
  /-- No path ends in it. -/
  zero_notMem : (0 : UInt8) ∉ name
  /-- There is something in it. -/
  ne_nil : name ≠ []
  /-- It is not the directory. -/
  ne_self : name ≠ self
  /-- It is not the directory above. -/
  ne_parent : name ≠ parent

end Path

namespace FileStore

variable {files files' : FileStore} {path other : Path} {place : Place} {content : Bytes} {mode : Mode}

theorem follow_append (files : FileStore) (place : Place) (xs ys : List Bytes) :
    files.follow place (xs ++ ys) = (files.follow place xs).bind fun next => files.follow next ys := by
  induction xs generalizing place with
  | nil => rfl
  | cons x xs ih =>
    rw [List.cons_append, follow, follow, ih, ih, ih]
    split_ifs <;> rfl

theorem follow_fileName {name : Bytes} (hname : Path.IsFileName name) {dir : Place}
    (h : files.follow dir [name] = some place) : place = dir ++ [name] := by
  unfold follow at h
  by_cases hdir : files.isDirectory dir = true
  · rw [hdir, if_neg (by decide), if_neg (not_or.2 ⟨hname.ne_nil, hname.ne_self⟩), if_neg hname.ne_parent] at h
    by_cases hlong : Path.maxNameLength < name.length
    · rw [if_pos hlong] at h
      cases h
    · rw [if_neg hlong] at h
      cases h
      rfl
  · rw [Bool.not_eq_true] at hdir
    rw [hdir, if_pos (by decide)] at h
    cases h

/-- A path to a name in a directory leads to that name in some place. -/
theorem exists_of_locate_join {dir : Path} {name : String} (hdir : (0 : UInt8) ∉ dir)
    (hname : Path.IsFileName (Utf8.ofString name)) (h : files.locate (Path.join dir name) = some place) :
    ∃ parent, place = parent ++ [Utf8.ofString name] := by
  have hkept : (Path.join dir name).takeWhile (· ≠ 0) = Path.join dir name := by
    rw [List.takeWhile_eq_self_iff]
    intro b hb
    have hb : b ∈ dir ∨ b = Path.slash ∨ b ∈ Utf8.ofString name := by
      simpa [Path.join] using hb
    have hne : b ≠ 0 := by
      rintro rfl
      obtain hb | hb | hb := hb
      · exact hdir hb
      · cases hb
      · exact hname.zero_notMem hb
    exact decide_eq_true hne
  unfold locate at h
  dsimp only at h
  rw [hkept] at h
  by_cases hlong : Path.join dir name = [] ∨ Path.maxLength < (Path.join dir name).length
  · rw [if_pos hlong] at h
    cases h
  · rw [if_neg hlong, Path.join, Path.names_append, hname.names_eq, follow_append] at h
    obtain ⟨parent, -, hlast⟩ := Option.bind_eq_some_iff.1 h
    exact ⟨parent, follow_fileName hname hlast⟩

/-- So two names in one directory lead to two places. -/
theorem locate_join_ne {dir : Path} {name name' : String} (hdir : (0 : UInt8) ∉ dir)
    (hname : Path.IsFileName (Utf8.ofString name)) (hname' : Path.IsFileName (Utf8.ofString name'))
    (hne : Utf8.ofString name ≠ Utf8.ofString name') (h : files.locate (Path.join dir name) = some place) :
    files.locate (Path.join dir name') ≠ some place := by
  intro h'
  obtain ⟨parent, hplace⟩ := exists_of_locate_join hdir hname h
  obtain ⟨parent', hplace'⟩ := exists_of_locate_join hdir hname' h'
  obtain ⟨-, hlast⟩ := List.append_inj' (hplace.symm.trans hplace') rfl
  exact hne (List.cons.inj hlast).1

/-! ### A file that was written -/

/-- The store is the one before with a file at the end of a path, where no directory was. -/
def Wrote (files : FileStore) (path : Path) (content : Bytes) (files' : FileStore) : Prop :=
  ∃ place mode, files.locate path = some place ∧ files.isDirectory place = false ∧
    files' = files.put place (.file content mode)

theorem isDirectory_eq_false_iff :
    files.isDirectory place = false ↔ ∀ mode, files.node? place ≠ some (.directory mode) := by
  unfold isDirectory
  split
  · rename_i mode hnode
    exact ⟨fun h => (nomatch h), fun h => absurd hnode (h mode)⟩
  · rename_i hnode
    exact ⟨fun _ mode => hnode mode, fun _ => rfl⟩

theorem wrote_of_write? (h : files.write? path content = some files') : files.Wrote path content files' := by
  obtain ⟨place, hlocate, hput⟩ := Option.bind_eq_some_iff.1 h
  split at hput
  · cases hput
  · rename_i old mode hnode
    cases hput
    refine ⟨place, mode, hlocate, isDirectory_eq_false_iff.2 fun mode' h => ?_, rfl⟩
    cases hnode.symm.trans h
  · rename_i hnode
    cases hput
    refine ⟨place, .file, hlocate, isDirectory_eq_false_iff.2 fun mode' h => ?_, rfl⟩
    cases hnode.symm.trans h

theorem wrote_of_writeSecret? (h : files.writeSecret? path content = some files') :
    files.Wrote path content files' := by
  obtain ⟨place, hlocate, hput⟩ := Option.bind_eq_some_iff.1 h
  split at hput
  · cases hput
  · rename_i hnode
    cases hput
    exact ⟨place, .secret, hlocate, isDirectory_eq_false_iff.2 fun mode' h => hnode mode' h, rfl⟩

namespace Wrote

theorem ne_root (h : files.isDirectory place = false) : place ≠ [] := by
  rintro rfl
  cases h

/-- **What was written is read.** -/
theorem read?_eq (h : files.Wrote path content files') : files'.read? path = some content := by
  obtain ⟨place, mode, hlocate, hfree, rfl⟩ := h
  have hfind : (files.put place (.file content mode)).find? path = some (.file content mode) := by
    show ((files.put place (.file content mode)).locate path).bind _ = _
    rw [locate_put hfree, hlocate]
    show (files.put place (.file content mode)).node? place = _
    rw [node?_put files _ place (ne_root hfree), if_pos rfl]
  rw [read?, hfind]

/-- Other files stay as they were, and where they were. -/
theorem find?_other (h : files.Wrote path content files') (hne : files.locate other ≠ files.locate path) :
    files'.find? other = files.find? other := by
  obtain ⟨place, mode, hlocate, hfree, rfl⟩ := h
  show ((files.put place (.file content mode)).locate other).bind _ = (files.locate other).bind _
  rw [locate_put hfree]
  cases hother : files.locate other with
  | none => rfl
  | some target =>
    have htarget : target ≠ place := by
      rintro rfl
      exact hne (hother.trans hlocate.symm)
    show (files.put place (.file content mode)).node? target = files.node? target
    rw [node?_put files _ target (ne_root hfree), if_neg htarget]

theorem locate_eq (h : files.Wrote path content files') (other : Path) :
    files'.locate other = files.locate other := by
  obtain ⟨place, mode, -, hfree, rfl⟩ := h
  exact locate_put hfree other

end Wrote

end FileStore

/-! ### Key files -/

namespace KeyFile

variable {files files' : FileStore} {path : Path} {key : Key}

theorem between_text (key : Bytes) : Base58.Between (Base58.encode key) (text key) :=
  ⟨[], [0x0A], rfl, by simp, by simp⟩

/-- **A content is read as a key exactly if it is the base 58 text of that key** between blanks. -/
theorem parse_eq_ok_iff {content : Bytes} :
    parse content = .ok key ↔ Base58.Between (Base58.encode key.toBytes) content := by
  constructor
  · intro h
    unfold parse at h
    cases hdecode : Base58.decode? content with
    | none => rw [hdecode] at h; cases h
    | some bs =>
      rw [hdecode] at h
      have hbs : bs = key.toBytes := by
        unfold Key.ofPrivateBytes FixedBytes.ofBytes? at h
        by_cases hlength : bs.length = 32
        · simp only [dif_pos hlength] at h
          cases h
          rfl
        · simp only [dif_neg hlength] at h
          cases h
      -- What is left of the content without its blanks is the text that the key has.
      have hdigits := Base58.overAlphabet_of_decode? hdecode
      obtain ⟨bs', hbs', hencode⟩ := hdigits.exists_decode?
      rw [Base58.decode?_of_between hdigits (Base58.between_trim content), hbs'] at hdecode
      cases hdecode
      rw [← hbs, hencode]
      exact Base58.between_trim content
  · intro h
    unfold parse
    rw [Base58.decode?_of_between (Base58.overAlphabet_encode _) h, Base58.decode?_encode]
    show Key.ofPrivateBytes .fileLength key.toBytes = .ok key
    rw [Key.ofPrivateBytes, FixedBytes.ofBytes?_toBytes]

/-- A file that is read is parsed. -/
theorem load_of_read? {content : Bytes} (h : files.read? path = some content) :
    load path files = parse content := by
  rw [load, h]

/-- A key file that was written loads. -/
theorem load_of_wrote (h : files.Wrote path (text key.toBytes) files') : load path files' = .ok key := by
  rw [load_of_read? h.read?_eq]
  exact parse_eq_ok_iff.2 (between_text key.toBytes)

theorem load_congr {path' : Path} (h : files'.find? path' = files.find? path) :
    load path' files' = load path files := by
  rw [load, load, FileStore.read?, FileStore.read?, h]

theorem wrote_of_save {bs : Bytes} (h : save path bs files = .ok files') : files.Wrote path (text bs) files' := by
  unfold save at h
  cases hwrite : files.write? path (text bs) with
  | none => rw [hwrite] at h; cases h
  | some next =>
    rw [hwrite] at h
    cases h
    exact FileStore.wrote_of_write? hwrite

theorem wrote_of_saveSecret {bs : Bytes} (h : saveSecret path bs files = .ok files') :
    files.Wrote path (text bs) files' :=
  FileStore.wrote_of_writeSecret? (saveSecret_eq_ok_iff.1 h)

end KeyFile

/-! ### The pool's own keys -/

namespace Pool

variable {S : Suite} {c c' : PoolConfig} {host host' later : Host} {pair : KeyPair}

theorem isFileName_static : Path.IsFileName (Utf8.ofString "static-key.priv") where
  names_eq := by decide +kernel
  zero_notMem := by decide +kernel
  ne_nil := by decide +kernel
  ne_self := by decide +kernel
  ne_parent := by decide +kernel

theorem isFileName_staticPublic : Path.IsFileName (Utf8.ofString "static-key.pub") where
  names_eq := by decide +kernel
  zero_notMem := by decide +kernel
  ne_nil := by decide +kernel
  ne_self := by decide +kernel
  ne_parent := by decide +kernel

/-- A pool that makes its keys leaves the private one in its file. The public one, which is written after it,
goes to another place. -/
theorem load_of_staticKeys (hdir : (0 : UInt8) ∉ c.keysDir) (hnew : host.files.find? (staticPath c) = none)
    (h : staticKeys S c host = .ok pair host') :
    KeyFile.load (staticPath c) host'.files = .ok pair.privateKey ∧ pair = .ofEntropy S host.entropy := by
  have hmissing : ¬ (host.files.find? (staticPath c)).isSome = true := by
    rw [hnew]
    exact Bool.false_ne_true
  unfold staticKeys at h
  rw [Step.get_bind, if_neg hmissing] at h
  obtain ⟨made, host₁, hdraw, hrest⟩ := Step.bind_eq_ok_iff.1 h
  obtain ⟨_, host₂, hwrite, hlast⟩ := Step.bind_eq_ok_iff.1 hrest
  obtain ⟨_, host₃, hwrite', hret⟩ := Step.bind_eq_ok_iff.1 hlast
  cases hret
  obtain ⟨rest, hgenerate, rfl⟩ := Step.onPart_eq_ok_iff.1 hdraw
  obtain ⟨files₂, hsecret, rfl⟩ := Host.writing_eq_ok_iff.1 hwrite
  obtain ⟨files₃, hpublic, rfl⟩ := Host.writing_eq_ok_iff.1 hwrite'
  have wroteSecret := KeyFile.wrote_of_saveSecret hsecret
  have wrotePublic := KeyFile.wrote_of_save hpublic
  have hapart : files₂.locate (staticPath c) ≠ files₂.locate (staticPublicPath c) := by
    intro heq
    obtain ⟨place, -, hplace, -⟩ := wrotePublic
    exact FileStore.locate_join_ne hdir isFileName_static isFileName_staticPublic (by decide +kernel)
      (heq.trans hplace) hplace
  refine ⟨?_, (KeyPair.generate_eq_ok_iff.1 hgenerate).2.1⟩
  rw [KeyFile.load_congr (wrotePublic.find?_other hapart)]
  exact KeyFile.load_of_wrote wroteSecret

/-- A pool whose file holds a key that is not all zeros has the pair of that key. -/
theorem staticKeys_of_load {key : Key} (hload : KeyFile.load (staticPath c) host.files = .ok key)
    (hkey : key ≠ FixedBytes.replicate 32 0) : staticKeys S c host = .ok (.ofPrivate S key) host := by
  unfold staticKeys
  rw [Step.get_bind, if_pos (isSome_find?_of_load hload)]
  refine (Step.bind_of_ok (Host.reading_eq_ok_iff.2 ⟨hload, rfl⟩)).trans ?_
  rw [KeyPair.ofStaticBytes_toBytes, if_neg hkey]
  rfl

/-- **On every later start the pool has the key pair of the first one**, if it made one then and the file of the
private key is as it was left. -/
theorem staticKeys_again (hS : ∀ key, S.privateKey key ≠ FixedBytes.replicate 32 0)
    (hdir : (0 : UInt8) ∉ c.keysDir) (hnew : host.files.find? (staticPath c) = none)
    (h : staticKeys S c host = .ok pair host')
    (hkept : later.files.find? (staticPath c') = host'.files.find? (staticPath c)) :
    staticKeys S c' later = .ok pair later := by
  obtain ⟨hload, rfl⟩ := load_of_staticKeys hdir hnew h
  exact staticKeys_of_load ((KeyFile.load_congr hkept).trans hload) (hS _)

end Pool

/-! ### Keys that are made -/

namespace Keygen

variable {S : Suite} {kind : Kind} {host host' : Host} {publicPath secretPath : Path} {key : Key}

/-- The public key that a program derives from the bytes of a private one. -/
def Kind.publicOfBytes (S : Suite) (kind : Kind) (bs : Bytes) : Except Fault Key :=
  match kind with
  | .authority => do return (← AuthorityKeyPair.ofPrivateBytes S bs).publicKey
  | .static => do return (← KeyPair.ofStaticBytes S bs).publicKey

/-- Of a pair that was made, the public key is the one that the private key gives. -/
theorem Kind.publicOfBytes_of_generate (hS : ∀ key, S.privateKey key ≠ FixedBytes.replicate 32 0)
    {secret : Key} {entropy rest : Entropy} (h : kind.generate S entropy = .ok (key, secret) rest) :
    kind.publicOfBytes S secret.toBytes = .ok key := by
  cases kind with
  | authority =>
    obtain ⟨pair, _, hpair, hret⟩ := Step.bind_eq_ok_iff.1 h
    obtain ⟨drawn, _, -, hmade⟩ := Step.bind_eq_ok_iff.1 hpair
    cases hret
    cases hmade
    have hbytes : Key.ofPrivateBytes .authorityLength drawn.toBytes = .ok drawn := by
      rw [Key.ofPrivateBytes, FixedBytes.ofBytes?_toBytes]
    show (AuthorityKeyPair.ofPrivateBytes S drawn.toBytes >>= fun pair => .ok pair.publicKey) = _
    rw [AuthorityKeyPair.ofPrivateBytes, hbytes]
    rfl
  | static =>
    obtain ⟨pair, _, hpair, hret⟩ := Step.bind_eq_ok_iff.1 h
    obtain ⟨drawn, _, -, hmade⟩ := Step.bind_eq_ok_iff.1 hpair
    cases hret
    cases hmade
    show (KeyPair.ofStaticBytes S (S.privateKey drawn).toBytes >>= fun pair => .ok pair.publicKey) = _
    rw [KeyPair.ofStaticBytes_toBytes, if_neg (hS drawn)]
    rfl

/-- **Both files of a pair load**, if they are two, and the private key gives the public one. -/
theorem load_of_make (hS : ∀ key, S.privateKey key ≠ FixedBytes.replicate 32 0)
    (hapart : host.files.locate publicPath ≠ host.files.locate secretPath)
    (h : make S kind publicPath secretPath host = .ok key host') :
    KeyFile.load publicPath host'.files = .ok key ∧
      ∃ secret, KeyFile.load secretPath host'.files = .ok secret ∧
        kind.publicOfBytes S secret.toBytes = .ok key := by
  obtain ⟨⟨made, secret⟩, host₁, hdraw, hrest⟩ := Step.bind_eq_ok_iff.1 h
  obtain ⟨_, host₂, hwrite, hlast⟩ := Step.bind_eq_ok_iff.1 hrest
  obtain ⟨_, host₃, hwrite', hret⟩ := Step.bind_eq_ok_iff.1 hlast
  cases hret
  obtain ⟨rest, hgenerate, rfl⟩ := Step.onPart_eq_ok_iff.1 hdraw
  obtain ⟨files₂, hpublic, rfl⟩ := Host.writing_eq_ok_iff.1 hwrite
  obtain ⟨files₃, hsecret, rfl⟩ := Host.writing_eq_ok_iff.1 hwrite'
  have wrotePublic := KeyFile.wrote_of_save hpublic
  have wroteSecret := KeyFile.wrote_of_saveSecret hsecret
  -- The secret key is written last, and not over the public one.
  have hkept : files₂.locate publicPath ≠ files₂.locate secretPath := by
    rw [wrotePublic.locate_eq, wrotePublic.locate_eq]
    exact hapart
  refine ⟨?_, secret, KeyFile.load_of_wrote wroteSecret, Kind.publicOfBytes_of_generate hS hgenerate⟩
  rw [KeyFile.load_congr (wroteSecret.find?_other hkept)]
  exact KeyFile.load_of_wrote wrotePublic

end Keygen

/-- A clamped key is not all zeros. -/
theorem X25519.clamp_ne_zero (key : Key) : clamp key ≠ FixedBytes.replicate 32 0 := by
  intro h
  have hlength : key.toBytes.length = 32 := key.length_eq
  have hlast : (clamp key).toBytes[31]? = some ((key.toBytes[31] &&& 127) ||| 64) := by
    simp [clamp, FixedBytes.padded, hlength]
  rw [h] at hlast
  have hzero : (FixedBytes.replicate 32 0 : Key).toBytes[31]? = some 0 := rfl
  have hbyte : (key.toBytes[31] &&& 127) ||| 64 = 0 := Option.some.inj (hlast.symm.trans hzero)
  have hge : 64 ≤ ((key.toBytes[31] &&& 127) ||| 64).toNat := by
    rw [UInt8.toNat_or]
    exact Nat.right_le_or
  rw [hbyte] at hge
  exact absurd hge (by decide)

/-! ### Keys come back -/

/-- What is promised of keys that are kept in files. -/
structure StoredKeys (S : Suite) : Prop where
  /-- A key that was written, public or secret, is read. -/
  load_of_save {path : Path} {key : Key} {files files' : FileStore} :
    KeyFile.save path key.toBytes files = .ok files' ∨ KeyFile.saveSecret path key.toBytes files = .ok files' →
      KeyFile.load path files' = .ok key
  /-- Whatever a file holds, it is read as a key or refused as a caller's mistake. -/
  load_or_refuse {path : Path} {files : FileStore} {content : Bytes} : files.read? path = some content →
    (∃ key, KeyFile.load path files = .ok key) ∨
      ∃ cause, KeyFile.load path files = .error cause ∧ cause.kind = .invalidArgument
  /-- It is read as a key exactly if it is the text of that key between blanks. -/
  load_iff {path : Path} {files : FileStore} {content : Bytes} {key : Key} : files.read? path = some content →
    (KeyFile.load path files = .ok key ↔ Base58.Between (Base58.encode key.toBytes) content)
  /-- A pool that makes its key pair when it starts, with any random bytes, certifies that pair; and it has the
  pair on every later start that finds the file of the private key as it was left. -/
  restart {c : PoolConfig} {now : UInt32} {host host' : Host} {responder : Responder} :
    (0 : UInt8) ∉ c.keysDir → host.files.find? (Pool.staticPath c) = none →
    Pool.start S c now host = .ok responder host' →
      (∃ authority, KeyFile.load (Pool.authorityPath c) host.files = .ok authority ∧
        CertificateMessage.issue S (.ofPrivate S authority) responder.staticKeys.publicKey c.certificate now
          = .ok responder.certificate) ∧
      ∀ (c' : PoolConfig) (later : Host), c'.keysDir = c.keysDir →
        later.files.find? (Pool.staticPath c') = host'.files.find? (Pool.staticPath c) →
          Pool.staticKeys S c' later = .ok responder.staticKeys later ∧
          ∀ now' responder' last, Pool.start S c' now' later = .ok responder' last →
            responder'.staticKeys = responder.staticKeys
  /-- The program that makes keys leaves two files that load, if its paths lead to two places, and the public
  key that is derived from the one is the other. -/
  made {kind : Keygen.Kind} {publicPath secretPath : Path} {host host' : Host} {key : Key} :
    host.files.locate publicPath ≠ host.files.locate secretPath →
    Keygen.make S kind publicPath secretPath host = .ok key host' →
      KeyFile.load publicPath host'.files = .ok key ∧
        ∃ secret, KeyFile.load secretPath host'.files = .ok secret ∧
          kind.publicOfBytes S secret.toBytes = .ok key

/-- **Stored keys come back unchanged**, whatever the keys, the files around them and the random bytes. -/
theorem stored_keys_come_back (S : Suite) (hS : ∀ key, S.privateKey key ≠ FixedBytes.replicate 32 0) :
    StoredKeys S where
  load_of_save := by
    rintro path key files files' (h | h)
    · exact KeyFile.load_of_wrote (KeyFile.wrote_of_save h)
    · exact KeyFile.load_of_wrote (KeyFile.wrote_of_saveSecret h)
  load_or_refuse := by
    intro path files content h
    rw [KeyFile.load_of_read? h]
    cases hparse : KeyFile.parse content with
    | ok key => exact .inl ⟨key, rfl⟩
    | error cause => exact .inr ⟨cause, rfl, KeyFile.kind_of_parse hparse⟩
  load_iff := by
    intro path files content key h
    rw [KeyFile.load_of_read? h]
    exact KeyFile.parse_eq_ok_iff
  restart := by
    intro c now host host' responder hdir hnew h
    obtain ⟨authority, pair, certificate, hload, hstatic, hissue, rfl⟩ := Pool.start_eq_ok_iff.1 h
    refine ⟨⟨authority, hload, hissue⟩, fun c' later _ hkept => ?_⟩
    have hagain := Pool.staticKeys_again hS hdir hnew hstatic hkept
    refine ⟨hagain, fun now' responder' last hlater => ?_⟩
    obtain ⟨_, pair', _, -, hstatic', -, rfl⟩ := Pool.start_eq_ok_iff.1 hlater
    cases hagain.symm.trans hstatic'
    rfl
  made := by
    intro kind publicPath secretPath host host' key hapart h
    exact Keygen.load_of_make hS hapart h

/-- A certificate is issued if it is to be valid for some time and there is time left. -/
theorem CertificateMessage.exists_issue (S : Suite) (authority : AuthorityKeyPair) (staticKey : Key)
    {config : CertificateConfig} {now : UInt32} (hvalidity : 0 < config.validity) (hnow : now < 0xFFFFFFFF) :
    ∃ certificate, issue S authority staticKey config now = .ok certificate :=
  ⟨_, issue_eq_ok_iff.2 ⟨⟨hvalidity, hnow⟩, rfl⟩⟩

namespace StoredKeys.Sample

/-- The settings of a pool. -/
def config : PoolConfig := { keysDir := Utf8.ofString "keys" }

/-- The secret key of the authority. It starts with a zero. -/
def authorityKey : Key := ⟨0 :: List.replicate 31 4, by decide⟩

/-- The files of a pool that has not been started: the authority's secret key. -/
def files : FileStore :=
  ({} : FileStore).addFile (Pool.authorityPath config) (KeyFile.text authorityKey.toBytes)

/-- The host of that pool. -/
def host : Host := { files, entropy := List.replicate 40 2 }

end StoredKeys.Sample

open StoredKeys.Sample in
/-- A key with a zero in front comes back, and a pool that is started again, with other random bytes, has the
key pair that it certified when it was started first. -/
theorem stored_keys_come_back_on_sample :
    KeyFile.load (Pool.authorityPath config) files = .ok authorityKey ∧
    ∃ responder host', Pool.start Suite.standard config 1000 host = .ok responder host' ∧
      Pool.staticKeys Suite.standard config { host' with entropy := [7] }
        = .ok responder.staticKeys { host' with entropy := [7] } := by
  obtain ⟨-, -, hiff, hrestart, -⟩ := stored_keys_come_back Suite.standard X25519.clamp_ne_zero
  have hread : files.read? (Pool.authorityPath config) = some (KeyFile.text authorityKey.toBytes) := by
    decide +kernel
  have hload := (hiff hread).2 (KeyFile.between_text authorityKey.toBytes)
  have hnew : host.files.find? (Pool.staticPath config) = none := by decide +kernel
  have hsecret : host.files.Writable (Pool.staticPath config) :=
    ⟨["keys", "static-key.priv"].map Utf8.ofString, by decide +kernel, by decide +kernel⟩
  have hpublic : host.files.Writable (Pool.staticPublicPath config) :=
    ⟨["keys", "static-key.pub"].map Utf8.ofString, by decide +kernel, by decide +kernel⟩
  obtain ⟨host', hstatic, -⟩ := Pool.staticKeys_ready (S := Suite.standard)
    (.made hnew (by decide) hsecret hpublic)
  obtain ⟨certificate, hissue⟩ := CertificateMessage.exists_issue Suite.standard
    (.ofPrivate Suite.standard authorityKey) (KeyPair.ofEntropy Suite.standard host.entropy).publicKey
    (show 0 < config.certificate.validity by decide) (show (1000 : UInt32) < 0xFFFFFFFF by decide)
  have hstart : Pool.start Suite.standard config 1000 host = .ok _ host' :=
    Pool.start_eq_ok_iff.2 ⟨authorityKey, _, certificate, hload, hstatic, hissue, rfl⟩
  have hdir : (0 : UInt8) ∉ config.keysDir := by decide +kernel
  obtain ⟨-, hlater⟩ := hrestart hdir hnew hstart
  obtain ⟨hagain, -⟩ := hlater config { host' with entropy := [7] } rfl rfl
  exact ⟨hload, _, host', hstart, hagain⟩

end Stratum
