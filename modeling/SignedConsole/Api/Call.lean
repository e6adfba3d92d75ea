import SignedConsole.Api.Error
import SignedConsole.Api.Resource
import SignedConsole.Http.Wire
import SignedConsole.Json.Printer
import SignedConsole.Json.Reader
import SignedConsole.Text.Blank

namespace SignedConsole

/-- A call of the platform, typed by what its reply is read as. -/
inductive Call : Type → Type where
  | sendCode (email : String) : Call Notice
  | register (email code password : String) : Call Registration
  | login (email password : String) : Call Grant
  | resetPassword (email code newPassword : String) : Call Notice
  | listDatabases : Call DatabaseList
  | getDatabase (id : String) : Call Database
  | createDatabase (name : String) : Call Created
  | deleteDatabase (id : String) : Call Unit
  | listStores : Call (List KeyValueStore)
  | createStore (kind url : String) : Call Created
  | deleteStore (id : String) : Call Unit
  | listWorkers : Call (List Worker)
  | getWorker (id : String) (offset : Nat) : Call WorkerDetail
  | createWorker (name : String) : Call Worker
  | deleteWorker (id : String) : Call Unit
  | workerVariables (id : String) : Call Variables
  | setVariable (id : String) (update : VariableUpdate) : Call Variables
  | workerSecrets (id : String) : Call (List String)
  | setSecret (id : String) (update : VariableUpdate) : Call (List String)
  | listDomains : Call (List Domain)
  | getDomain (id : String) : Call Domain
  | createDomain (name target : String) : Call Domain
  | deleteDomain (id : String) : Call Unit

namespace Call

def method : Call α → Method
  | sendCode .. | register .. | login .. | resetPassword .. => .post
  | listDatabases | getDatabase _ => .get
  | createDatabase _ => .post
  | deleteDatabase _ => .delete
  | listStores => .get
  | createStore .. => .post
  | deleteStore _ => .delete
  | listWorkers | getWorker .. => .get
  | createWorker _ => .post
  | deleteWorker _ => .delete
  | workerVariables _ => .get
  | setVariable .. => .post
  | workerSecrets _ => .get
  | setSecret .. => .post
  | listDomains | getDomain _ => .get
  | createDomain .. => .post
  | deleteDomain _ => .delete

/-- The address below the base. Names go into it as they are. -/
def path : Call α → String
  | sendCode _ => "/api/auth/send-code"
  | register .. => "/api/auth/register"
  | login .. => "/api/auth/login"
  | resetPassword .. => "/api/auth/reset-password"
  | listDatabases | createDatabase _ => "/api/rdb"
  | getDatabase id | deleteDatabase id => "/api/rdb/" ++ id
  | listStores | createStore .. => "/api/kv"
  | deleteStore id => "/api/kv/" ++ id
  | listWorkers | createWorker _ => "/api/worker"
  | getWorker id offset =>
    "/api/worker/" ++ id ++ if offset = 0 then "" else "?offset=" ++ Text.decimal offset
  | deleteWorker id => "/api/worker/" ++ id
  | workerVariables id | setVariable id _ => "/api/worker/" ++ id ++ "/env"
  | workerSecrets id | setSecret id _ => "/api/worker/" ++ id ++ "/secret"
  | listDomains | createDomain .. => "/api/domain"
  | getDomain id | deleteDomain id => "/api/domain/" ++ id

def texts (members : List (String × String)) : Json :=
  .ofMembers (members.map fun m => (m.1, .ofString m.2))

/-- What the call sends along. A deletion sends an empty object. -/
def body : Call α → Option Json
  | sendCode email => some (texts [("email", email)])
  | register email code password =>
    some (texts [("email", email), ("code", code), ("password", password)])
  | login email password => some (texts [("email", email), ("password", password)])
  | resetPassword email code newPassword =>
    some (texts [("email", email), ("code", code), ("new_password", newPassword)])
  | createDatabase name => some (texts [("name", name)])
  | createStore kind url => some (texts [("kv_type", kind), ("url", url)])
  | createWorker name => some (texts [("worker_name", name)])
  | createDomain name target => some (texts [("domain", name), ("target", target)])
  | setVariable _ update | setSecret _ update => some update.toJson
  | deleteDatabase _ | deleteStore _ | deleteWorker _ | deleteDomain _ => some (.object [])
  | listDatabases | getDatabase _ | listStores | listWorkers | getWorker .. | workerVariables _
  | workerSecrets _ | listDomains | getDomain _ => none

/-- Whether the call changes a resource and is therefore signed. -/
def isSensitive : Call α → Bool
  | createDatabase _ | createStore .. | createWorker _ | createDomain .. | setVariable ..
  | setSecret .. | deleteDatabase _ | deleteStore _ | deleteWorker _ | deleteDomain _ => true
  | sendCode _ | register .. | login .. | resetPassword .. | listDatabases | getDatabase _
  | listStores | listWorkers | getWorker .. | workerVariables _ | workerSecrets _ | listDomains
  | getDomain _ => false

/-- Reads a result that is empty where the reply gives null. -/
def orEmpty (read : Json → Option (List α)) (j : Json) : Option (List α) :=
  (Json.option? read j).map fun found => found.getD []

/-- Any value at all will do. -/
def anyValue (j : Json) : Option Unit := if j.isValue then some () else none

/-- The result in the document of a successful reply. -/
def read : Call α → Json → Option α
  | sendCode _ | resetPassword .. => Notice.read
  | register .. => Registration.read
  | login .. => Grant.read
  | listDatabases => DatabaseList.read
  | getDatabase _ => Database.read
  | createDatabase _ | createStore .. => Created.read
  | listStores => KeyValueStore.readList
  | listWorkers => orEmpty (Json.list? Worker.read)
  | getWorker .. => WorkerDetail.read
  | createWorker _ => Worker.read
  | workerVariables _ | setVariable .. => orEmpty Json.textMap?
  | workerSecrets _ | setSecret .. => orEmpty (Json.list? Json.text?)
  | listDomains => Domain.readList
  | getDomain _ | createDomain .. => Domain.read
  | deleteDatabase _ | deleteStore _ | deleteWorker _ | deleteDomain _ => anyValue

/-- The message of a failed call that brings none. -/
def genericFailure : String := "Request failed"

/-- The message in the body of a failed call. -/
def failureMessage (text : String) : String :=
  let given := do
    let j ← Json.read text
    if j.isValue then (← j.lastMember? "error").text? else none
  match given with
  | some m => if m.isEmpty then genericFailure else m
  | none => genericFailure

def isBlankText (text : String) : Bool := text.toList.all Text.isBlank

/-- The outcome of a call by its reply. An empty reply counts as null. -/
def outcome (call : Call α) (reply : Reply) : Except CallError α :=
  match reply.text? with
  | none => .error .network
  | some text =>
    if reply.isSuccess then
      match (Json.read (if isBlankText text then "null" else text)).bind call.read with
      | some a => .ok a
      | none => .error .invalidResponse
    else .error (.server reply.status (failureMessage text))

end Call
end SignedConsole
