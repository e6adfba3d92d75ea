import SignedConsole.Console.Databases

namespace SignedConsole.Workers

open Attempt (ask call surely tell)

def statusTone (status : String) : Tone :=
  if status == "active" || status == "success" then .success
  else if status == "error" then .error
  else .warning

def whole (n : Int) : String :=
  if n < 0 then "-" ++ Text.decimal n.natAbs else Text.decimal n.natAbs

def versionLabel : Option Int → String
  | some n => whole n
  | none => "none"

def stateLines (w : Worker) : List Line :=
  [⟨statusTone w.status, "  Status: " ++ w.status⟩,
   .plain ("  Active Version: " ++ versionLabel w.activeVersion), .blank]

def workerLines (w : Worker) : List Line :=
  [.success ("ID: " ++ w.id), .plain ("  Name: " ++ w.name)] ++ stateLines w

def listLines (workers : List Worker) : List Line :=
  [.blank, .info "=== Workers ==="] ++
    if workers.isEmpty then [.warning "No workers found"] else workers.flatMap workerLines

def createdLines (w : Worker) : List Line :=
  [.blank, .info ("Worker ID: " ++ w.id), .info ("Name: " ++ w.name)]

def versionLines (active : Option Int) (v : WorkerVersion) : List Line :=
  let mark := if active == some v.id then " [active]" else ""
  [⟨statusTone v.status, "  #" ++ whole v.id ++ mark⟩, .plain ("    Image: " ++ v.image),
   .plain ("    Port: " ++ Text.decimal v.port), .plain ("    Status: " ++ v.status)] ++
    (if v.note.isEmpty then [] else [.plain ("    Msg: " ++ v.note)]) ++
    [.plain ("    Created: " ++ v.createdAt), .blank]

def detailLines (r : WorkerDetail) : List Line :=
  let w := r.worker
  [.blank, .info ("=== Worker: " ++ w.name ++ " ==="), .plain ("  ID: " ++ w.id)] ++
    stateLines w ++
    if r.versions.isEmpty then [.warning "No deploy versions found"]
    else .info "--- Deploy Versions ---" :: r.versions.flatMap (versionLines w.activeVersion)

def variableLine (m : String × String) : Line := .plain ("  " ++ m.1 ++ "=" ++ m.2)

/-- The value of a secret is not known here, and would not be shown. -/
def secretLine (key : String) : Line := .plain ("  " ++ key ++ "=********")

/-- A list of entries under a heading. -/
def entryLines (heading : String) (entries : List Line) : List Line :=
  [.blank, .info heading] ++ (if entries.isEmpty then [.warning "  (empty)"] else []) ++
    entries ++ [.blank]

/-- An entry line: `KEY=VALUE` sets a variable and `-KEY` removes one. A key is not empty and holds
no equals sign. -/
def update? (line : String) : Option VariableUpdate :=
  match line.toList with
  | '-' :: key =>
    if key.isEmpty || key.contains '=' then none else some (.remove (String.ofList key))
  | cs =>
    match cs.dropWhile (· != '=') with
    | [] => none
    | _ :: value =>
      let key := cs.takeWhile (· != '=')
      if key.isEmpty then none else some (.set (String.ofList key) (String.ofList value))

/-- Reads entry lines, of which there are at most as many as are still to be typed, up to an empty
one. Others that are no entries are refused and do not count. -/
def readUpdatesFrom : List String → Console σ (List VariableUpdate)
  | [] => do
    let _ ← Console.readLine "" false
    return []
  | _ :: rest => do
    match ← Console.readLine "" false with
    | none => return []
    | some line =>
      if line.isEmpty then return []
      else match update? line with
        | some u => return u :: (← readUpdatesFrom rest)
        | none =>
          Console.tell [.error "Invalid format, use KEY=VALUE or -KEY"]
          readUpdatesFrom rest

def readUpdates (heading : String) : Console σ (List VariableUpdate) := do
  Console.tell [.info heading]
  readUpdatesFrom (← get).typed

/-- Sends the updates in order and returns the last reply. The key of the one that is refused is
told. -/
def sendUpdates (make : VariableUpdate → Call (List α)) (last : List α) :
    List VariableUpdate → Attempt σ (List α)
  | [] => return last
  | u :: us => do
    let reply ← Attempt.during u.key (call (make u))
    sendUpdates make reply us

def setVariables (id : String) : Attempt σ Unit := do
  let updates ← surely (readUpdates
    "Enter env vars (KEY=VALUE, -KEY to remove), empty line to finish:")
  if updates.isEmpty then tell [.warning "No env vars provided, cancelled"]
  else
    let stored ← sendUpdates (.setVariable id) [] updates
    tell (.success "Env updated, syncing to cluster..." :: stored.map variableLine)

def setSecrets (id : String) : Attempt σ Unit := do
  let updates ← surely (readUpdates
    "Enter secrets (KEY=VALUE, -KEY to remove), empty line to finish:")
  if updates.isEmpty then tell [.warning "No secrets provided, cancelled"]
  else
    let keys ← sendUpdates (.setSecret id) [] updates
    tell (.success "Secrets updated, syncing to cluster..." :: keys.map secretLine)

/-- Variables and secrets are entered a line each and sent one by one, in order, up to the first
that is refused. -/
def run : OrUsage WorkerCommand → Console σ Unit
  | .ok .list => Console.attempt "Failed to list workers" do
    tell (listLines (← call .listWorkers))
  | .ok .add => Console.attempt "Failed to create worker" do
    let name ← ask "Enter worker name:" false
    tell (createdLines (← call (.createWorker name)))
  | .ok (.get id offset) => Console.attempt "Failed to get worker" do
    tell (detailLines (← call (.getWorker id offset)))
  | .ok (.delete id) => Console.attempt "Failed to delete worker" do
    call (.deleteWorker id)
    tell [.success "Worker deleted successfully"]
  | .ok (.variables id) => Console.attempt "Failed to get env" do
    let entries ← call (.workerVariables id)
    tell (entryLines ("=== Env: " ++ id ++ " ===") (entries.map variableLine))
  | .ok (.setVariables id) => Console.attempt "Failed to set env" (setVariables id)
  | .ok (.secrets id) => Console.attempt "Failed to get secrets" do
    let keys ← call (.workerSecrets id)
    tell (entryLines ("=== Secrets: " ++ id ++ " ===") (keys.map secretLine))
  | .ok (.setSecrets id) => Console.attempt "Failed to set secrets" (setSecrets id)
  | .error usage => Console.usage usage

end SignedConsole.Workers
