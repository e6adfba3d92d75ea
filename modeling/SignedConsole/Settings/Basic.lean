import SignedConsole.Api.Client
import SignedConsole.Storage.Disk

namespace SignedConsole

structure Settings where
  baseUrl : String
  scheme : Scheme
  policy : UnsignedPolicy
  timeoutSeconds : Nat
  stateDir : Option String
deriving DecidableEq

namespace Settings

def default : Settings := ⟨"http://localhost:9900", .hmac, .failOpen, 30, none⟩

def ofJson? (j : Json) : Option Settings := do
  let f ← j.fields? ["base_url", "scheme", "policy", "timeout_secs", "state_dir"]
  return ⟨← Json.defaulted Json.text? default.baseUrl (f "base_url"),
    ← Json.defaulted (Json.name? Scheme.table) default.scheme (f "scheme"),
    ← Json.defaulted (Json.name? UnsignedPolicy.table) default.policy (f "policy"),
    ← Json.defaulted (Json.natUpTo? maxNat64) default.timeoutSeconds (f "timeout_secs"),
    ← Json.defaulted (Json.option? Json.text?) default.stateDir (f "state_dir")⟩

def read? (text : String) : Option Settings := (Json.read text).bind ofJson?

/-- The text of a settings file. -/
def print (s : Settings) : String :=
  Json.printLines [("base_url", .ofString s.baseUrl), ("scheme", .ofString s.scheme.name),
    ("policy", .ofString s.policy.name), ("timeout_secs", .ofNat s.timeoutSeconds),
    ("state_dir", (s.stateDir.map Json.ofString).getD .null)]

/-- The settings in a file. One that is not there or does not read as settings counts as one that
says nothing. -/
def load (path : String) (d : Disk) : Settings :=
  (((d.readText path).toOption).bind read?).getD default

/-- Why settings cannot be kept. -/
inductive SaveError where
  | directory (cause : FileError)
  | file (cause : FileError)
  /-- There is no place for them. -/
  | noPlace
deriving DecidableEq

def SaveError.message : SaveError → String
  | .directory e => "Failed to create config directory: " ++ e.message
  | .file e => "Failed to write config: " ++ e.message
  | .noPlace => "Could not determine config directory"

/-- Writes the settings to a file, with the directories that it needs. -/
def save (s : Settings) (path : String) (d : Disk) : Except SaveError Unit × Disk :=
  let (made, d) := Disk.run (Disk.makeDirectories ((Path.parent? path).getD "")) d
  match made with
  | .error e => (.error (.directory e), d)
  | .ok () =>
    let (written, d) := Disk.run (Disk.writeFile path (Text.utf8 s.print)) d
    (written.mapError .file, d)

def normalizedBaseUrl (s : Settings) : String := withoutSlashes s.baseUrl

end Settings
end SignedConsole
