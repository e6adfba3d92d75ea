import SignedConsole.Api.Client
import SignedConsole.Credential.Vault
import SignedConsole.Storage.Host

namespace SignedConsole

/-- How a line is meant. -/
inductive Tone where
  | plain
  | info
  | success
  | warning
  | error
deriving DecidableEq

/-- A line of output. -/
structure Line where
  tone : Tone
  text : String
deriving DecidableEq

namespace Line

def blank : Line := ⟨.plain, ""⟩
def plain (text : String) : Line := ⟨.plain, text⟩
def info (text : String) : Line := ⟨.info, text⟩
def success (text : String) : Line := ⟨.success, text⟩
def warning (text : String) : Line := ⟨.warning, text⟩
def error (text : String) : Line := ⟨.error, text⟩

end Line

/-- What happens at a terminal. Everything shown or asked is kept in order. -/
inductive Event where
  | printed (line : Line)
  | cleared
  /-- A prompt, and the line that came back, if any did. -/
  | asked (prompt : String) (hidden : Bool) (answer : Option String)
deriving DecidableEq

/-- A console in use. Lines still to be typed stand first to last. -/
structure Desk (σ : Type) where
  client : Client
  vault : Vault σ
  wire : Wire
  now : Clock
  typed : List String
  events : List Event

/-- Why a command fails. -/
inductive Failure where
  | inputClosed
  | call (cause : CallError)
  | unreadable (path : String) (cause : FileError)
  /-- What was being done when the cause struck. -/
  | during (task : String) (cause : Failure)
deriving DecidableEq

namespace Failure

/-- What went wrong and why, the outermost first. A signature that fails is told twice: the call
names its cause, and the cause follows. -/
def chain : Failure → List String
  | .inputClosed => ["input closed"]
  | .call (.signing e) => [(CallError.signing e).message, e.message]
  | .call e => [e.message]
  | .unreadable path e => ["could not read " ++ path, e.message]
  | .during task cause => task :: cause.chain

def message (f : Failure) : String := String.intercalate ": " f.chain

end Failure

abbrev Console (σ : Type) := StateM (Desk σ)

/-- A command that may fail keeps what it has done by then. -/
abbrev Attempt (σ : Type) := ExceptT Failure (StateM (Desk σ))

/-- The result of a command and the desk that it leaves. -/
def Desk.perform (d : Desk σ) (act : Console σ α) : α × Desk σ := Id.run (StateT.run act d)

namespace Console

def record (events : List Event) : Console σ Unit :=
  modify fun d => { d with events := d.events ++ events }

def tell (lines : List Line) : Console σ Unit := record (lines.map Event.printed)

/-- Prompts for a line, which is trimmed. -/
def readLine (prompt : String) (hidden : Bool) : Console σ (Option String) := do
  match (← get).typed with
  | [] =>
    record [.asked prompt hidden none]
    return none
  | line :: rest =>
    let answer := Text.trim line
    modify fun d => { d with typed := rest }
    record [.asked prompt hidden (some answer)]
    return some answer

def session : Console σ Session := do return (← get).vault.session

def changeVault (f : Vault σ → α × Vault σ) : Console σ α :=
  modifyGet fun d =>
    let (a, vault) := f d.vault
    (a, { d with vault })

end Console

namespace Attempt

/-- A step that cannot fail. -/
def surely (act : Console σ α) : Attempt σ α := liftM act

def tell (lines : List Line) : Attempt σ Unit := surely (Console.tell lines)

/-- Prompts for a line that has to be there. -/
def ask (prompt : String) (hidden : Bool) : Attempt σ String := do
  match ← surely (Console.readLine prompt hidden) with
  | some line => return line
  | none => throw .inputClosed

/-- Makes a call for the session of the moment. -/
def call (c : Call α) : Attempt σ α := do
  let d ← get
  let (r, wire) := d.client.run d.now.shown d.vault.session c d.wire
  set { d with wire, now := d.client.clockAfter d.now d.vault.session c }
  match r with
  | .ok a => return a
  | .error e => throw (.call e)

/-- Says what was being done when an attempt fails. -/
def during (task : String) (act : Attempt σ α) : Attempt σ α :=
  tryCatch act fun f => throw (.during task f)

end Attempt

/-- Does a task, and tells why it failed if it did. -/
def Console.attempt (task : String) (act : Attempt σ Unit) : Console σ Unit := do
  match ← (Attempt.during task act).run with
  | .ok () => return ()
  | .error f => tell [.error f.message]

end SignedConsole
