import Stratum.Text.Utf8

/-!
# Files

A store of files under directories, as far as key files need one. A path is a byte string whose names
stand between slashes; it leads from the working directory, or from the root if it starts with a slash,
through directories to a place. There a file can be read, or written if no directory is there.

A new file can be read by everybody. A secret file, new or not, is left to its owner alone.

* `node?_put`: putting something at a place changes that place only.
-/

namespace Stratum

/-- A path as it is given. -/
abbrev Path := Bytes

namespace Path

/-- The byte between two names: `/`. -/
def slash : UInt8 := 0x2F

/-- The name of the directory itself: `.`. -/
def self : Bytes := [0x2E]

/-- The name of the directory above: `..`. -/
def parent : Bytes := [0x2E, 0x2E]

/-- The greatest number of bytes of a path. -/
def maxLength : Nat := 4095

/-- The greatest number of bytes of a name. -/
def maxNameLength : Nat := 255

/-- The names between the slashes of a path. There are empty ones where slashes meet, and at its ends. -/
def names : Path → List Bytes
  | [] => [[]]
  | b :: bs =>
    if b = slash then [] :: names bs
    else
      match names bs with
      | [] => [[b]]
      | name :: rest => (b :: name) :: rest

/-- A path that leads on from a directory. -/
def join (directory : Path) (name : String) : Path := directory ++ slash :: Utf8.ofString name

end Path

/-- A place in a store: the names that lead there from the root. -/
abbrev Place := List Bytes

/-- The permission bits of a file or a directory. -/
abbrev Mode := UInt16

namespace Mode

/-- Everybody reads, the owner writes. -/
def file : Mode := 0o644

/-- Only the owner reads and writes. -/
def secret : Mode := 0o600

/-- Everybody enters, the owner changes. -/
def directory : Mode := 0o755

end Mode

/-- What is at a place. -/
inductive Node where
  /-- A file. -/
  | file (content : Bytes) (mode : Mode)
  /-- A directory. -/
  | directory (mode : Mode)
  deriving DecidableEq

/-- The permission bits of what is at a place. -/
def Node.mode : Node → Mode
  | file _ mode => mode
  | directory mode => mode

/-- Files and directories. -/
structure FileStore where
  /-- What is where. Of several entries for a place the first counts. -/
  entries : List (Place × Node) := []
  /-- The place from where paths lead on. -/
  workingDirectory : Place := []
  deriving DecidableEq

namespace FileStore

/-- What is at a place. The root is a directory. -/
def node? (s : FileStore) (place : Place) : Option Node :=
  if place = [] then some (.directory .directory) else s.entries.lookup place

/-- Puts something at a place. -/
def put (s : FileStore) (place : Place) (node : Node) : FileStore :=
  { s with entries := (place, node) :: s.entries }

theorem node?_put (s : FileStore) {place : Place} (node : Node) (other : Place) (h : place ≠ []) :
    (s.put place node).node? other = if other = place then some node else s.node? other := by
  by_cases ho : other = place
  · subst ho
    simp [node?, put, h]
  · have hb : (other == place) = false := by simpa using ho
    simp [node?, put, ho, hb, List.lookup_cons]

/-- Whether a directory is at a place. -/
def isDirectory (s : FileStore) (place : Place) : Bool :=
  match s.node? place with
  | some (.directory _) => true
  | _ => false

/-- The place that names lead to from a place. All places on the way are directories; whether something
is at the last one is left open. -/
def follow (s : FileStore) (place : Place) : List Bytes → Option Place
  | [] => some place
  | name :: names =>
    if !s.isDirectory place then none
    else if name = [] ∨ name = Path.self then follow s place names
    else if name = Path.parent then follow s place.dropLast names
    else if Path.maxNameLength < name.length then none
    else follow s (place ++ [name]) names

/-- The place that a path starts from. -/
def origin (s : FileStore) (path : Path) : Place :=
  if path.head? = some Path.slash then [] else s.workingDirectory

/-- The place that a path leads to. The path ends before a zero byte, and an empty one leads nowhere. -/
def locate (s : FileStore) (path : Path) : Option Place :=
  let path := path.takeWhile (· ≠ 0)
  if path = [] ∨ Path.maxLength < path.length then none
  else s.follow (s.origin path) (Path.names path)

/-- What is at the end of a path. -/
def find? (s : FileStore) (path : Path) : Option Node := do
  s.node? (← s.locate path)

/-- The content of a file. -/
def read? (s : FileStore) (path : Path) : Option Bytes :=
  match s.find? path with
  | some (.file content _) => some content
  | _ => none

/-- The store after writing a file. A file that was there keeps its permissions. -/
def write? (s : FileStore) (path : Path) (content : Bytes) : Option FileStore := do
  let place ← s.locate path
  match s.node? place with
  | some (.directory _) => none
  | some (.file _ mode) => s.put place (.file content mode)
  | none => s.put place (.file content .file)

/-- The store after writing a file that only its owner can read. -/
def writeSecret? (s : FileStore) (path : Path) (content : Bytes) : Option FileStore := do
  let place ← s.locate path
  match s.node? place with
  | some (.directory _) => none
  | _ => s.put place (.file content .secret)

/-- The store with a directory at each place on the way of names from a place, where nothing was. -/
def withDirectories (s : FileStore) (place : Place) : List Bytes → FileStore
  | [] => s
  | name :: names =>
    if name = [] ∨ name = Path.self then withDirectories s place names
    else if name = Path.parent then withDirectories s place.dropLast names
    else
      let place := place ++ [name]
      let s := if (s.node? place).isSome then s else s.put place (.directory .directory)
      withDirectories s place names

/-- A store with nothing but the working directory, which the names lead to from the root. -/
def empty (names : List String) : FileStore :=
  let place := names.map Utf8.ofString
  ({ workingDirectory := place } : FileStore).withDirectories [] place

/-- The store with the directories in which the end of a path is. -/
def addParents (s : FileStore) (path : Path) : FileStore :=
  s.withDirectories (s.origin path) (Path.names path).dropLast

/-- The store with a directory at the end of a path. -/
def addDirectory (s : FileStore) (path : Path) : FileStore :=
  s.withDirectories (s.origin path) (Path.names path)

/-- The store with a file at the end of a path. -/
def addFile (s : FileStore) (path : Path) (content : Bytes) : FileStore :=
  let s := s.addParents path
  (s.write? path content).getD s

end FileStore

end Stratum
