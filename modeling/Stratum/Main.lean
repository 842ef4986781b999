import Std.Time.DateTime.Timestamp
import Stratum.Keygen
import Stratum.Miner.Client
import Stratum.Pool.Server

/-!
# The command line

`sv2 keygen`, `sv2 pool` and `sv2 miner` run the programs on real files, the real clock and real random
bytes. A pool and a miner find their connection on standard input and standard output, as programs do that
a listener such as `inetd` starts; the address and the port on their command lines are checked and, by a
miner, announced.

Everything that is decided, is decided by the programs. Here the files that they name are read before, and
written back after.
-/

namespace Stratum.Command

/-- How the programs are called. -/
def usage : String := "Usage: sv2 <keygen|pool|miner> [arguments]\n"

/-- The text of a path or of an output. -/
def textOf (bs : Bytes) : String := (String.fromUTF8? ⟨bs.toArray⟩).getD ""

/-! ### Files -/

/-- The store before anything is looked at. -/
def noFiles : FileStore := .empty ["here"]

/-- Looks at a path. What cannot be read as a file stands in the store as a directory: it exists, and can
neither be read nor written. -/
def look (files : FileStore) (path : Path) : IO FileStore := do
  try
    return files.addFile path (← IO.FS.readBinFile (textOf path)).toList
  catch
    | .noFileOrDirectory _ _ _ => return files.addParents path
    | _ => return files.addDirectory path

/-- Writes a file. A secret one is closed to others before it has a content. -/
def write (path : Path) (content : Bytes) (mode : Mode) : IO Unit := do
  if mode == .secret then
    IO.FS.writeBinFile (textOf path) .empty
    IO.setAccessRights (textOf path) { user := { read := true, write := true } }
  IO.FS.writeBinFile (textOf path) ⟨content.toArray⟩

/-- Writes the files at some paths that a program has changed. -/
def writeBack (before after : FileStore) (paths : List Path) : IO Unit := do
  for path in paths do
    if after.find? path ≠ before.find? path then
      if let some (.file content mode) := after.find? path then write path content mode

/-! ### The clock and random bytes -/

/-- The seconds since the start of 1970. Behind the last second of 32 bits the clock stands still. -/
def now : IO UInt32 := do
  let seconds := (← Std.Time.Timestamp.now).toSecondsSinceUnixEpoch.val.toNat
  return UInt32.ofNat (min seconds 0xFFFFFFFF)

/-- How many random bytes are held ready: more than any turn of a program takes. -/
def entropyReserve : USize := 256

/-- New random bytes. -/
def freshEntropy : IO Entropy := return (← IO.getRandomBytes entropyReserve).toList

/-! ### The connection -/

/-- Lets a program talk to its peer until it ends. What the peer sends is read byte by byte, because a
longer read would wait for bytes that the peer may never send. -/
def talk {σ : Type} (p : Program σ) (refill : σ → IO σ) (start : Dialogue σ) : IO Progress := do
  let stdin ← IO.getStdin
  let stdout ← IO.getStdout
  let mut d := start
  repeat
    stdout.write ⟨d.peer.incoming.flatten.toArray⟩
    stdout.flush
    if d.progress.hasEnded then break
    let received ← stdin.read 1
    let peer : Transport := { outgoing := received.toList, outputEnded := received.isEmpty }
    d := { d with program := ← refill d.program }.advance p peer
  return d.progress

/-! ### The programs -/

/-- Prints what a program says at its end. Gives its exit status. -/
def report (o : Outcome) : IO UInt32 := do
  IO.print (textOf o.stdout)
  IO.eprint (textOf o.stderr)
  return o.exit.toUInt32

/-- Makes keys. -/
def keygen (args : List Bytes) : IO UInt32 := do
  let paths := args.drop 1
  let files ← paths.foldlM look noFiles
  let (outcome, host) := Keygen.run .standard args { files, entropy := ← freshEntropy }
  writeBack files host.files paths
  report outcome

/-- Serves one connection. -/
def pool (args : List Bytes) : IO UInt32 := do
  let paths := (args[2]?.map fun keysDir => Pool.keyFiles { keysDir }).getD []
  let files ← paths.foldlM look noFiles
  let (start, host) := Pool.launch .standard args (← now) { files, entropy := ← freshEntropy }
  writeBack files host.files paths
  match start with
  | .ended outcome => report outcome
  | .ready config responder =>
    let p := Pool.Server.program .standard
    let d : Dialogue Pool.Server := { program := .make config responder host.entropy }
    let refill (s : Pool.Server) : IO Pool.Server := return { s with entropy := ← freshEntropy }
    let progress ← talk p refill (d.advance p d.peer)
    return (Pool.Server.exit? progress).getD 0 |>.toUInt32

/-- Opens a channel at a pool. -/
def miner (args : List Bytes) : IO UInt32 := do
  let files ← (args[2]?.toList).foldlM look noFiles
  match Miner.launch args files with
  | .ended outcome => report outcome
  | .ready config authority =>
    let p := Miner.Client.program .standard
    let d : Dialogue Miner.Client := { program := .make config authority (← now) (← freshEntropy) }
    let progress ← talk p pure (d.advance p d.peer)
    return (Miner.Client.exit? progress).getD 0 |>.toUInt32

/-- Runs the program that the first argument names. -/
def run (args : List String) : IO UInt32 :=
  match args with
  | "keygen" :: args => keygen (args.map Utf8.ofString)
  | "pool" :: args => pool (args.map Utf8.ofString)
  | "miner" :: args => miner (args.map Utf8.ofString)
  | _ => report (.usage usage)

end Stratum.Command

/-- Runs a program. A file that cannot be written ends it. -/
def main (args : List String) : IO UInt32 :=
  try Stratum.Command.run args catch _ => return 1
