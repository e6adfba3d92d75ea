import SignedConsole.Storage.Basic
import SignedConsole.Storage.Disk
import SignedConsole.Text.Quoted

namespace SignedConsole

/-- Storage in a directory, a file for each key. A value is written beside its place and moved there
in one step, so a file under a key is never half written by the one who writes it. -/
structure FileStorage where
  disk : Disk
  dir : String

namespace FileStorage

/-- Keys are made of ASCII letters, digits, hyphens and underlines. -/
def isKey (key : String) : Bool :=
  !key.isEmpty && key.toList.all fun c => c.isAlphanum || c == '_' || c == '-'

def path (dir key : String) : String := Path.join dir (key ++ ".json")

/-- Where a value is written before it gets its place. -/
def draftPath (dir key : String) : String := Path.join dir (key ++ ".json.tmp")

/-- The owner reads and writes, others do neither. -/
def ownerOnly : Nat := 0o600

/-- What is done, a step at a time, to put a value under a key. -/
inductive Step where
  | makeDirectories (dir : String)
  | create (path : String)
  | restrict
  | write (bytes : Bytes)
  | sync
  | rename (old new : String)
deriving DecidableEq

/-- A step uses the file that an earlier one has opened. -/
def Step.run (open? : Option Handle) : Step → DiskAction (Option Handle)
  | .makeDirectories dir => do
    Disk.makeDirectories dir
    return open?
  | .create path => some <$> Disk.create path ownerOnly
  | .restrict => do
    if let some h := open? then Disk.setMode h.file ownerOnly
    return open?
  | .write bytes =>
    match open? with
    | some h => some <$> Disk.write h bytes
    | none => return none
  | .sync => return none
  | .rename old new => do
    Disk.rename old new
    return none

/-- A file that is left over from an earlier try keeps its mode when it is opened, so the mode is
set once more. -/
def writeSteps (dir key value : String) : List Step :=
  [.makeDirectories dir, .create (draftPath dir key), .restrict, .write (Text.utf8 value), .sync,
   .rename (draftPath dir key) (path dir key)]

/-- Does the steps up to the first that fails. -/
def runSteps (steps : List Step) : DiskAction Unit := do
  let _ ← steps.foldlM (fun open? step => step.run open?) none

def failure (e : FileError) : CredentialError := .storage e.message

def invalidKey (key : String) : CredentialError :=
  .storage ("invalid storage key: " ++ Text.quoted key)

/-- A missing file is a missing value. -/
def read (s : FileStorage) (key : String) : Except CredentialError (Option String) :=
  if isKey key then
    match s.disk.readText (path s.dir key) with
    | .ok text => .ok (some text)
    | .error .notFound => .ok none
    | .error e => .error (failure e)
  else .error (invalidKey key)

def write (key value : String) (s : FileStorage) : Except CredentialError Unit × FileStorage :=
  if isKey key then
    let (r, disk) := Disk.run (runSteps (writeSteps s.dir key value)) s.disk
    (r.mapError failure, { s with disk })
  else (.error (invalidKey key), s)

def erase (key : String) (s : FileStorage) : Except CredentialError Unit × FileStorage :=
  if isKey key then
    match Disk.run (Disk.unlink (path s.dir key)) s.disk with
    | (.ok (), disk) => (.ok (), { s with disk })
    | (.error .notFound, disk) => (.ok (), { s with disk })
    | (.error e, disk) => (.error (failure e), { s with disk })
  else (.error (invalidKey key), s)

end FileStorage

instance : Storage FileStorage where
  get key s := (s.read key, s)
  set := FileStorage.write
  remove := FileStorage.erase

end SignedConsole
