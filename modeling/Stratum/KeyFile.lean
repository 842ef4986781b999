import Stratum.Host
import Stratum.KeyPair
import Stratum.Text.Base58

/-!
# Key files

A key file holds one key as a line of base 58 text. A secret key file can be read by its owner only.
-/

namespace Stratum.KeyFile

/-- The content of the file of a key. -/
def text (key : Bytes) : Bytes := Base58.encode key ++ [0x0A]

/-- The key that the content of a file writes. -/
def parse (content : Bytes) : Except Fault Key :=
  match Base58.decode? content with
  | none => .error (.key .fileText)
  | some bs => Key.ofPrivateBytes .fileLength bs

/-- Reads a key from its file. -/
def load (path : Path) (files : FileStore) : Except Fault Key :=
  match files.read? path with
  | none => .error (.key .fileRead)
  | some content => parse content

/-- Writes a public key to a file. -/
def save (path : Path) (key : Bytes) (files : FileStore) : Except Fault FileStore :=
  match files.write? path (text key) with
  | none => .error (.key .fileWrite)
  | some files => .ok files

/-- Writes a secret key to a file. -/
def saveSecret (path : Path) (key : Bytes) (files : FileStore) : Except Fault FileStore :=
  match files.writeSecret? path (text key) with
  | none => .error (.key .secretFileWrite)
  | some files => .ok files

end Stratum.KeyFile
