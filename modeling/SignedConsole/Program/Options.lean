import SignedConsole.Settings.Location

namespace SignedConsole

structure Options where
  config : Option String
  baseUrl : Option String
  scheme : Option Scheme
  stateDir : Option String
  failClosed : Bool
  ephemeral : Bool
  saveConfig : Bool
deriving DecidableEq

/-- What a command line asks for. -/
inductive Invocation where
  | console (o : Options)
  | help
  | version
  | misuse
deriving DecidableEq

namespace Options

def none : Options := ⟨.none, .none, .none, .none, false, false, false⟩

/-- The options that take a value. -/
inductive Valued where
  | config
  | baseUrl
  | scheme
  | stateDir
deriving DecidableEq

inductive Switch where
  | verbose
  | failClosed
  | ephemeral
  | saveConfig
  | help
  | version
deriving DecidableEq

def longName : String → Option (Valued ⊕ Switch)
  | "config" => some (.inl .config)
  | "base-url" => some (.inl .baseUrl)
  | "scheme" => some (.inl .scheme)
  | "state-dir" => some (.inl .stateDir)
  | "verbose" => some (.inr .verbose)
  | "fail-closed" => some (.inr .failClosed)
  | "ephemeral" => some (.inr .ephemeral)
  | "save-config" => some (.inr .saveConfig)
  | "help" => some (.inr .help)
  | "version" => some (.inr .version)
  | _ => .none

def shortName : Char → Option (Valued ⊕ Switch)
  | 'c' => some (.inl .config)
  | 'v' => some (.inr .verbose)
  | 'h' => some (.inr .help)
  | 'V' => some (.inr .version)
  | _ => .none

/-- Gives an option its value, once. Paths are not empty, and a scheme is one that is known. -/
def setValue (o : Options) (name : Valued) (value : String) : Option Options :=
  match name with
  | .config =>
    if o.config.isSome || value.isEmpty then .none else some { o with config := some value }
  | .baseUrl => if o.baseUrl.isSome then .none else some { o with baseUrl := some value }
  | .scheme =>
    match o.scheme, Scheme.ofName value with
    | .none, .ok s => some { o with scheme := some s }
    | _, _ => .none
  | .stateDir =>
    if o.stateDir.isSome || value.isEmpty then .none else some { o with stateDir := some value }

/-- What a switch leads to: the options with it set, or an answer at once. Only the one for more
output may be repeated. -/
def setSwitch (o : Options) : Switch → Except Invocation Options
  | .verbose => .ok o
  | .failClosed => if o.failClosed then .error .misuse else .ok { o with failClosed := true }
  | .ephemeral => if o.ephemeral then .error .misuse else .ok { o with ephemeral := true }
  | .saveConfig => if o.saveConfig then .error .misuse else .ok { o with saveConfig := true }
  | .help => .error .help
  | .version => .error .version

/-- Whether a word behind an option can be its value. -/
def isValueWord (word : String) : Bool := word == "-" || word.toList.head? != some '-'

/-- How an argument is read: options with all they need, or one whose value is the next word. -/
inductive Reading where
  | done (o : Options)
  | wants (o : Options) (name : Valued)
  | ended (i : Invocation)

def Reading.ofOption : Option Options → Reading
  | some o => .done o
  | .none => .ended .misuse

/-- Reads what follows two hyphens. -/
def readLong (o : Options) (cs : List Char) : Reading :=
  let name := longName (String.ofList (cs.takeWhile (· != '=')))
  let value := match cs.dropWhile (· != '=') with
    | [] => Option.none
    | _ :: value => some (String.ofList value)
  match name, value with
  | some (.inl name), some value => .ofOption (o.setValue name value)
  | some (.inl name), .none => .wants o name
  | some (.inr switch), .none =>
    match o.setSwitch switch with
    | .ok o => .done o
    | .error i => .ended i
  | _, _ => .ended .misuse

/-- Reads the letters that follow one hyphen. A value may stand right behind its letter. -/
def readShort (o : Options) : List Char → Reading
  | [] => .done o
  | c :: cs =>
    match shortName c with
    | some (.inl name) =>
      match cs with
      | [] => .wants o name
      | '=' :: value => .ofOption (o.setValue name (String.ofList value))
      | value => .ofOption (o.setValue name (String.ofList value))
    | some (.inr switch) =>
      match o.setSwitch switch with
      | .ok o => readShort o cs
      | .error i => .ended i
    | .none => .ended .misuse

def readWord (o : Options) (word : String) : Reading :=
  match word.toList with
  | '-' :: '-' :: cs => readLong o cs
  | '-' :: c :: cs => readShort o (c :: cs)
  | _ => .ended .misuse

/-- Reads all words from left to right; the first mistake ends the reading, and so does a request
for help or for the version. Behind two hyphens alone nothing may follow. -/
def readWords (o : Options) : List String → Invocation
  | [] => .console o
  | word :: words =>
    if word == "--" then (if words.isEmpty then .console o else .misuse)
    else match readWord o word, words with
      | .done o, words => readWords o words
      | .ended i, _ => i
      | .wants o name, value :: words =>
        if isValueWord value then
          match o.setValue name value with
          | some o => readWords o words
          | .none => .misuse
        else .misuse
      | .wants _ _, [] => .misuse

/-- The settings with the options over them, field by field. -/
def applyTo (o : Options) (s : Settings) : Settings where
  baseUrl := o.baseUrl.getD s.baseUrl
  scheme := o.scheme.getD s.scheme
  policy := if o.failClosed then .failClosed else s.policy
  timeoutSeconds := s.timeoutSeconds
  stateDir := o.stateDir.or s.stateDir

/-- The file that the settings come from and go to. -/
def settingsPath (o : Options) (e : Environment) : Option String := o.config.or e.settingsPath

/-- The settings of a run. -/
def settings (o : Options) (e : Environment) (d : Disk) : Settings :=
  o.applyTo (match o.settingsPath e with
    | some path => Settings.load path d
    | .none => .default)

/-- Writes the settings back if that is asked for, and says where. -/
def persist (o : Options) (e : Environment) (s : Settings) (d : Disk) :
    Except Settings.SaveError (Option String) × Disk :=
  if !o.saveConfig then (.ok .none, d)
  else match o.settingsPath e with
    | .none => (.error .noPlace, d)
    | some path =>
      let (r, d) := s.save path d
      (r.map fun _ => some path, d)

end Options

/-- What the arguments ask for. -/
def Invocation.ofArgs (args : List String) : Invocation := Options.readWords .none args

end SignedConsole
