import SignedConsole.Bytes
import SignedConsole.Storage.Path
import SignedConsole.Text.Utf8

namespace SignedConsole

/-- Why the file system refuses. -/
inductive FileError where
  | notFound
  | exists
  | notDirectory
  | isDirectory
  | nameTooLong
  | nulInName
  | notUtf8
deriving DecidableEq

def FileError.message : FileError → String
  | .notFound => "No such file or directory (os error 2)"
  | .exists => "File exists (os error 17)"
  | .notDirectory => "Not a directory (os error 20)"
  | .isDirectory => "Is a directory (os error 21)"
  | .nameTooLong => "File name too long (os error 36)"
  | .nulInName => "file name contained an unexpected NUL byte"
  | .notUtf8 => "stream did not contain valid UTF-8"

/-- The names from the root. -/
abbrev Place := List String

inductive Node where
  | directory
  | file (id : Nat)
deriving DecidableEq

structure File where
  mode : Nat
  content : Bytes
deriving DecidableEq

/-- Every place but the root has an entry. Files are numbered in the order of their making, so one
that is open stays the same file when it is renamed, and one that two writers have opened is shared.
-/
structure Disk where
  entries : List (Place × Node)
  files : List File
  workDir : Place
deriving DecidableEq

/-- A disk action may fail, and keeps what it has done by then. -/
abbrev DiskAction := ExceptT FileError (StateM Disk)

/-- An open file and the position in it. -/
structure Handle where
  file : Nat
  offset : Nat
deriving DecidableEq

namespace Disk

/-- A disk that holds the working directory and what lies above it. -/
def empty (workDir : Place) : Disk :=
  ⟨(List.range workDir.length).map fun i => (workDir.take (i + 1), .directory), [], workDir⟩

def node? (d : Disk) (p : Place) : Option Node :=
  if p = [] then some .directory else d.entries.lookup p

def file? (d : Disk) (p : Place) : Option File :=
  match d.node? p with
  | some (.file id) => d.files[id]?
  | _ => none

def put (d : Disk) (p : Place) (n : Node) : Disk :=
  { d with entries := (p, n) :: d.entries.filter fun e => e.1 ≠ p }

def drop (d : Disk) (p : Place) : Disk :=
  { d with entries := d.entries.filter fun e => e.1 ≠ p }

/-- The bytes of a name that the file system takes at most. -/
def nameLimit : Nat := 255

/-- The bytes of a path, its end mark included. -/
def pathLimit : Nat := 4096

/-- Requires a directory. -/
def enter (d : Disk) (here : Place) : Except FileError Unit :=
  match d.node? here with
  | some .directory => .ok ()
  | some (.file _) => .error .notDirectory
  | none => .error .notFound

/-- Follows the parts of a path. Only the last of them may lead to nothing. -/
def walk (d : Disk) : Place → List String → Except FileError Place
  | here, [] => .ok here
  | here, part :: parts => do
    d.enter here
    if part == "" || part == "." then d.walk here parts
    else if part == ".." then d.walk here.dropLast parts
    else if nameLimit < (Text.utf8 part).length then throw .nameTooLong
    else d.walk (here ++ [part]) parts

/-- The place that a path leads to. -/
def locate (d : Disk) (path : String) : Except FileError Place :=
  if path.isEmpty then .error .notFound
  else if path.toList.any (·.toNat == 0) then .error .nulInName
  else if pathLimit ≤ (Text.utf8 path).length then .error .nameTooLong
  else d.walk (if Path.isAbsolute path then [] else d.workDir) (Path.parts path)

/-- What a path leads to. -/
def find (d : Disk) (path : String) : Except FileError Node := do
  match d.node? (← d.locate path) with
  | some n => return n
  | none => throw .notFound

def isDirectory (d : Disk) (path : String) : Bool :=
  match d.find path with
  | .ok .directory => true
  | _ => false

/-- All bytes of a file. -/
def read (d : Disk) (path : String) : Except FileError Bytes := do
  match ← d.find path with
  | .directory => throw .isDirectory
  | .file id => return ((d.files[id]?).map File.content).getD []

/-- The text of a file. -/
def readText (d : Disk) (path : String) : Except FileError String := do
  match Text.ofUtf8? (← d.read path) with
  | some s => return s
  | none => throw .notUtf8

/-- All files with their places. -/
def placed (d : Disk) : List (Place × File) :=
  d.entries.filterMap fun e => (d.file? e.1).map fun f => (e.1, f)

/-- The files below the working directory, by the names from there. -/
def tree (d : Disk) : List (Place × File) :=
  (d.placed.filter fun e => d.workDir.isPrefixOf e.1).map fun e =>
    (e.1.drop d.workDir.length, e.2)

/-- Makes a directory in one that is there. -/
def makeDirectory (path : String) : DiskAction Unit := do
  let d ← get
  let p ← d.locate (Path.unslashed path)
  match d.node? p with
  | some _ => throw .exists
  | none => set (d.put p .directory)

/-- Makes a directory, for which it is enough that there is one. -/
def ensureDirectory (path : String) : DiskAction Unit :=
  tryCatch (makeDirectory path) fun e => do
    if (← get).isDirectory path then pure () else throw e

/-- Makes the first of the directories, and what it lacks above it: the paths that follow lead
there, the nearest first. -/
def makeUpward : List String → DiskAction Unit
  | [] => pure ()
  | path :: above =>
    if path.isEmpty then pure ()
    else tryCatch (makeDirectory path) fun e => do
      if e = .notFound then
        makeUpward above
        ensureDirectory path
      else if (← get).isDirectory path then pure ()
      else throw e

/-- Makes a directory with all that lie above it. -/
def makeDirectories (path : String) : DiskAction Unit := makeUpward (Path.upward path)

/-- The permissions that a new file does not get. -/
def mask : Nat := 0o022

/-- Opens a file for writing from its start, emptied. A new one gets the mode less the mask. -/
def create (path : String) (mode : Nat) : DiskAction Handle := do
  let d ← get
  let p ← d.locate (Path.unslashed path)
  if Path.endsWithSlash path then throw .isDirectory
  match d.node? p with
  | some .directory => throw .isDirectory
  | some (.file id) =>
    set { d with files := d.files.modify id fun f => { f with content := [] } }
    return { file := id, offset := 0 }
  | none =>
    let id := d.files.length
    let file : File := ⟨mode &&& (0o777 ^^^ mask), []⟩
    set ({ d with files := d.files ++ [file] }.put p (.file id))
    return { file := id, offset := 0 }

def setMode (id mode : Nat) : DiskAction Unit :=
  modify fun d => { d with files := d.files.modify id fun f => { f with mode } }

/-- The old bytes with others put over them at a position; a gap is filled with zeros. -/
def overwrite (old : Bytes) (offset : Nat) (new : Bytes) : Bytes :=
  let front := old.take offset
  front ++ List.replicate (offset - front.length) 0 ++ new ++ old.drop (offset + new.length)

/-- Writes at the position of a handle and moves it. -/
def write (h : Handle) (bytes : Bytes) : DiskAction Handle := do
  modify fun d => { d with
    files := d.files.modify h.file fun f =>
      { f with content := overwrite f.content h.offset bytes } }
  return { h with offset := h.offset + bytes.length }

/-- Gives a file another name, at once and in place of the file that has it. -/
def rename (old new : String) : DiskAction Unit := do
  let d ← get
  let p ← d.locate old
  let q ← d.locate new
  match d.node? p, d.node? q with
  | none, _ => throw .notFound
  | _, some .directory => throw .isDirectory
  | some n, _ => set ((d.drop p).put q n)

/-- Removes a file. -/
def unlink (path : String) : DiskAction Unit := do
  let d ← get
  let p ← d.locate path
  match d.node? p with
  | none => throw .notFound
  | some .directory => throw .isDirectory
  | some (.file _) => set (d.drop p)

/-- Writes a whole file, a new one with the usual mode. -/
def writeFile (path : String) (bytes : Bytes) : DiskAction Unit := do
  let h ← create path 0o666
  let _ ← write h bytes

/-- Sets the mode of a file. -/
def chmod (path : String) (mode : Nat) : DiskAction Unit := do
  match ← (← get).find path with
  | .file id => setMode id mode
  | .directory => pure ()

/-- Runs an action on a disk. -/
def run (act : DiskAction α) (d : Disk) : Except FileError α × Disk := act.run.run d

end Disk
end SignedConsole
