import SignedConsole.Json.Shape

namespace SignedConsole

open Json

/-- A field that holds a text, empty if it is not there. -/
def textField (field : Option Json) : Option String := defaulted text? "" field

/-- A text that may be left out or null. -/
def noteField (field : Option Json) : Option (Option String) :=
  defaulted (option? text?) none field

/-- The largest number of 64 bits. -/
def maxNat64 : Nat := Nat.pow 2 64 - 1

/-- The answer to a registration. Members of an answer that have no place here do not count. -/
structure Registration where
  userId : String
  email : String
  token : String
  secretKey : String
deriving DecidableEq

def Registration.read (j : Json) : Option Registration := do
  let f ← j.fields? ["user_id", "email", "token", "secret_key"]
  return ⟨← required text? (f "user_id"), ← textField (f "email"), ← required text? (f "token"),
    ← textField (f "secret_key")⟩

/-- The answer to a login. -/
structure Grant where
  userId : String
  token : String
deriving DecidableEq

def Grant.read (j : Json) : Option Grant := do
  let f ← j.fields? ["user_id", "token"]
  return ⟨← required text? (f "user_id"), ← required text? (f "token")⟩

structure Notice where
  message : String
deriving DecidableEq

def Notice.read (j : Json) : Option Notice := do
  let f ← j.fields? ["message"]
  return ⟨← textField (f "message")⟩

structure Database where
  id : String
  name : String
  url : String
  size : Nat
deriving DecidableEq

def Database.read (j : Json) : Option Database := do
  let f ← j.fields? ["id", "name", "url", "size"]
  return ⟨← required text? (f "id"), ← textField (f "name"), ← textField (f "url"),
    ← defaulted (natUpTo? maxNat64) 0 (f "size")⟩

structure DatabaseList where
  databases : List Database
  totalSize : Option Nat
deriving DecidableEq

def DatabaseList.read (j : Json) : Option DatabaseList := do
  let f ← j.fields? ["rdbs", "database_size"]
  return ⟨← defaulted (list? Database.read) [] (f "rdbs"),
    ← defaulted (option? (natUpTo? maxNat64)) none (f "database_size")⟩

/-- What is told of a resource that has just been made. -/
structure Created where
  id : String
  message : Option String
  error : Option String
deriving DecidableEq

def Created.read (j : Json) : Option Created := do
  let f ← j.fields? ["id", "message", "error"]
  return ⟨← textField (f "id"), ← noteField (f "message"), ← noteField (f "error")⟩

structure KeyValueStore where
  id : String
  kind : String
  url : String
deriving DecidableEq

def KeyValueStore.read (j : Json) : Option KeyValueStore := do
  let f ← j.fields? ["id", "kv_type", "url"]
  return ⟨← required text? (f "id"), ← textField (f "kv_type"), ← textField (f "url")⟩

def KeyValueStore.readList (j : Json) : Option (List KeyValueStore) := do
  let f ← j.fields? ["kvs"]
  defaulted (list? KeyValueStore.read) [] (f "kvs")

structure Worker where
  id : String
  name : String
  status : String
  activeVersion : Option Int
deriving DecidableEq

def Worker.read (j : Json) : Option Worker := do
  let f ← j.fields? ["worker_id", "worker_name", "status", "active_version_id"]
  return ⟨← required text? (f "worker_id"), ← textField (f "worker_name"), ← textField (f "status"),
    ← defaulted (option? int64?) none (f "active_version_id")⟩

structure WorkerVersion where
  id : Int
  image : String
  port : Nat
  status : String
  note : String
  createdAt : String
deriving DecidableEq

def WorkerVersion.read (j : Json) : Option WorkerVersion := do
  let f ← j.fields? ["id", "image", "port", "status", "msg", "created_at"]
  return ⟨← required int64? (f "id"), ← textField (f "image"),
    ← defaulted (natUpTo? 65535) 0 (f "port"), ← textField (f "status"), ← textField (f "msg"),
    ← textField (f "created_at")⟩

structure WorkerDetail where
  worker : Worker
  versions : List WorkerVersion
deriving DecidableEq

def WorkerDetail.read (j : Json) : Option WorkerDetail := do
  let f ← j.fields? ["worker", "versions"]
  return ⟨← required Worker.read (f "worker"),
    ← defaulted (list? WorkerVersion.read) [] (f "versions")⟩

structure Domain where
  id : String
  name : String
  target : String
  status : String
  recordName : String
  recordValue : String
deriving DecidableEq

def Domain.read (j : Json) : Option Domain := do
  let f ← j.fields? ["id", "domain", "target", "status", "txt_name", "txt_value"]
  return ⟨← required text? (f "id"), ← textField (f "domain"), ← textField (f "target"),
    ← textField (f "status"), ← textField (f "txt_name"), ← textField (f "txt_value")⟩

def Domain.readList (j : Json) : Option (List Domain) := do
  let f ← j.fields? ["domains"]
  defaulted (list? Domain.read) [] (f "domains")

/-- Texts under ascending keys. -/
abbrev Variables := List (String × String)

/-- A change of one variable. -/
inductive VariableUpdate where
  | set (key value : String)
  | remove (key : String)
deriving DecidableEq

namespace VariableUpdate

def key : VariableUpdate → String
  | .set key _ => key
  | .remove key => key

def value : VariableUpdate → String
  | .set _ value => value
  | .remove _ => ""

def isRemoval : VariableUpdate → Bool
  | .set .. => false
  | .remove _ => true

/-- Only a removal says whether it is one. -/
def toJson (u : VariableUpdate) : Json :=
  .ofMembers ([("key", .ofString u.key), ("value", .ofString u.value)] ++
    if u.isRemoval then [("delete", .bool true)] else [])

end VariableUpdate
end SignedConsole
