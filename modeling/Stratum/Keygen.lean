import Stratum.KeyFile

/-!
# Making keys

The program that makes a key pair of an authority or of a pool. The public key goes to one file, the
secret key to another; if both are the same file, the secret key is what is left there.
-/

namespace Stratum.Keygen

/-- What a key pair is for. -/
inductive Kind where
  /-- Signing certificates. -/
  | authority
  /-- The handshakes of a pool. -/
  | static
  deriving DecidableEq, Repr

namespace Kind

/-- The name of a kind on the command line. -/
def name : Kind → String
  | authority => "authority"
  | static => "static"

/-- The kind with a given name. -/
def ofName? (text : Bytes) : Option Kind :=
  [authority, static].find? fun kind => Utf8.ofString kind.name == text

/-- A new pair of keys: the public one and the secret one. -/
def generate (S : Suite) : Kind → Random (Key × Key)
  | authority => do
    let pair ← AuthorityKeyPair.generate S
    return (pair.publicKey, pair.privateKey)
  | static => do
    let pair ← KeyPair.generate S
    return (pair.publicKey, pair.privateKey)

end Kind

/-- How the program is used. -/
def usage : String :=
  "Usage: sv2-keygen <authority|static> <pubkey_out> <privkey_out>\n"
    ++ "Keys are written as one base58 line each.\n\n"
    ++ "Example:\n"
    ++ "  sv2-keygen authority authority-key.pub authority-key.priv\n"
    ++ "  sv2-keygen static static-key.pub static-key.priv\n"

/-- What is said about another kind. -/
def unknownKind : String := "key kind must be 'authority' or 'static'\n"

/-- Makes a pair and writes its files, the public one first. Gives the public key. -/
def make (S : Suite) (kind : Kind) (publicPath secretPath : Path) : HostM Key := do
  let (publicKey, secretKey) ← Host.drawing (kind.generate S)
  Host.writing (KeyFile.save publicPath publicKey.toBytes)
  Host.writing (KeyFile.saveSecret secretPath secretKey.toBytes)
  return publicKey

/-- What is printed about a pair. -/
def summary (kind : Kind) (publicPath secretPath : Path) (publicKey : Key) : Bytes :=
  Utf8.ofString "OK\nkind   : " ++ Utf8.ofString kind.name
    ++ Utf8.ofString "\npubkey : " ++ publicPath
    ++ Utf8.ofString " (" ++ Base58.encode publicKey.toBytes
    ++ Utf8.ofString ")\nseckey : " ++ secretPath ++ Utf8.ofString "\n"

/-- The program. A fault on the way ends it without a word. -/
def run (S : Suite) (args : List Bytes) (host : Host) : Outcome × Host :=
  match args with
  | [kind, publicPath, secretPath] =>
    match Kind.ofName? kind with
    | none => (.usage unknownKind, host)
    | some kind =>
      match make S kind publicPath secretPath host with
      | .ok publicKey host =>
        ({ exit := 0, stdout := summary kind publicPath secretPath publicKey }, host)
      | .error _ host => ({ exit := 1 }, host)
  | _ => (.usage usage, host)

end Stratum.Keygen
