import SignedConsole.Console.Loop
import SignedConsole.Program.Options

namespace SignedConsole.Program

def helpText : String :=
  String.intercalate "\n"
    ["Combinator - manage databases, KV stores, workers and domains",
     "",
     "Usage: combinator [OPTIONS]",
     "",
     "Options:",
     "  -v, --verbose...             Increase verbosity (-v, -vv, -vvv)",
     "  -c, --config <CONFIG>        Config file (default: <config dir>/combinator/config.json)",
     "      --base-url <BASE_URL>    Platform API base URL",
     "      --scheme <SCHEME>        Request-signing scheme (hmac or rsa)",
     "      --state-dir <STATE_DIR>  Directory holding persisted credentials",
     "      --fail-closed            Refuse mutating requests that cannot be signed",
     "      --ephemeral              Keep credentials in memory only",
     "      --save-config            Write the effective settings back to the config file",
     "  -h, --help                   Print help",
     "  -V, --version                Print version",
     ""]

def versionText : String := "combinator " ++ version ++ "\n"

/-- The control sequence that clears a screen. -/
def clearSequence : String := "\r\x1b[2J\r\x1b[H"

/-- What an event puts out. A prompt ends with a space and no line break. -/
def eventText : Event → String
  | .printed line => line.text ++ "\n"
  | .cleared => clearSequence
  | .asked prompt _ _ => if prompt.isEmpty then "" else prompt ++ " "

/-- The lines of the input, up to the first that is no text. -/
def typedLines (input : Bytes) : List String :=
  let pieces := (input.splitOn 10).map Text.ofUtf8?
  let pieces := if pieces.getLast? == some (some "") then pieces.dropLast else pieces
  (pieces.takeWhile Option.isSome).filterMap id

/-- What a run starts from. -/
structure Start where
  args : List String
  environment : Environment
  input : Bytes
  disk : Disk
  wire : Wire
  now : Clock

namespace Start

/-- The settings file of a run. -/
def settingsFile? (s : Start) : Option String :=
  match Invocation.ofArgs s.args with
  | .console o => o.settingsPath s.environment
  | _ => none

/-- The other files that a run may look at: its credentials and, with private keys, whatever a line
may name. They depend on the settings. -/
def furtherFiles (s : Start) : List String :=
  match Invocation.ofArgs s.args with
  | .console o =>
    let settings := o.settings s.environment s.disk
    let kept := (settings.resolvedStateDir s.environment).toList.map fun dir =>
      FileStorage.path dir credentialsKey
    kept ++ match settings.scheme with
      | .hmac => []
      | .rsa => ((typedLines s.input).map Text.trim).filter fun path => !path.isEmpty
  | _ => []

end Start

structure Outcome where
  exit : Nat
  output : String
  disk : Disk
  wire : Wire

/-- Runs the console on a machine: what it puts out, and how things stand then. -/
def consoleRun [Host σ] (s : Start) (settings : Settings) (storage : σ) : String × Desk σ :=
  let (restored, vault) := (Vault.closed storage settings.scheme).load
  let client := Client.of settings.baseUrl settings.scheme settings.policy
  let desk : Desk σ :=
    { client, vault, wire := s.wire, now := s.now, typed := typedLines s.input, events := [] }
  let ((), desk) := desk.perform (Console.run restored)
  (String.join (desk.events.map eventText), desk)

/-- Runs the console with its credentials on the disk, or in memory if that is asked for or if there
is no place for them. -/
def runConsole (s : Start) (o : Options) : Outcome :=
  let settings := o.settings s.environment s.disk
  match o.persist s.environment settings s.disk with
  | (.error _, disk) => ⟨1, "", disk, s.wire⟩
  | (.ok saved, disk) =>
    let notice := match saved with
      | some path => "Saved configuration to " ++ path ++ "\n"
      | none => ""
    match if o.ephemeral then none else settings.resolvedStateDir s.environment with
    | some dir =>
      let storage : FileStorage := ⟨disk, dir⟩
      let (output, desk) := consoleRun s settings storage
      ⟨0, notice ++ output, desk.vault.storage.disk, desk.wire⟩
    | none =>
      let storage : Beside Memory := ⟨.empty, disk⟩
      let (output, desk) := consoleRun s settings storage
      ⟨0, notice ++ output, desk.vault.storage.disk, desk.wire⟩

/-- From arguments and input to output, exit status and the files that are left. Output is not
coloured, and hidden input is read like any other. -/
def run (s : Start) : Outcome :=
  match Invocation.ofArgs s.args with
  | .console o => runConsole s o
  | .help => ⟨0, helpText, s.disk, s.wire⟩
  | .version => ⟨0, versionText, s.disk, s.wire⟩
  | .misuse => ⟨2, "", s.disk, s.wire⟩

end SignedConsole.Program
