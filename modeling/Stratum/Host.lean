import Stratum.Entropy
import Stratum.FileStore

/-!
# The host of a program

What a program finds around it besides its connection: files, and random bytes. A step of a program says
what both are afterwards, also when it fails.
-/

namespace Stratum

/-- Files and random bytes. -/
structure Host where
  /-- The files. -/
  files : FileStore := {}
  /-- The random bytes to come. -/
  entropy : Entropy := []
  deriving DecidableEq

/-- A step of a program on its host. -/
abbrev HostM (α : Type) := EStateM Fault Host α

namespace Host

/-- Draws random bytes. -/
abbrev drawing {α : Type} (x : Random α) : HostM α :=
  onPart (·.entropy) (fun host entropy => { host with entropy }) x

/-- Reads the files. -/
def reading {α : Type} (x : FileStore → Except Fault α) : HostM α := fun host =>
  match x host.files with
  | .ok a => .ok a host
  | .error e => .error e host

/-- Changes the files. -/
def writing (x : FileStore → Except Fault FileStore) : HostM Unit := fun host =>
  match x host.files with
  | .ok files => .ok () { host with files }
  | .error e => .error e host

end Host

/-- How a program ends. -/
structure Outcome where
  /-- The exit status. -/
  exit : UInt8
  /-- What it prints. -/
  stdout : Bytes := []
  /-- What it says about its use. -/
  stderr : Bytes := []
  deriving DecidableEq

/-- The end of a program that was called wrongly. -/
def Outcome.usage (text : String) : Outcome := { exit := 1, stderr := Utf8.ofString text }

end Stratum
