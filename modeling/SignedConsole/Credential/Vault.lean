import SignedConsole.Credential.Record
import SignedConsole.Credential.Session
import SignedConsole.Storage.Basic

namespace SignedConsole

/-- The key of the credentials in the storage. -/
def credentialsKey : String := "console_credentials"

/-- The live session together with the storage that its credentials are kept in. The session is what
counts: a refusal of the storage never reaches the caller. -/
structure Vault (σ : Type) where
  storage : σ
  scheme : Scheme
  session : Session

namespace Vault

/-- A vault whose session is not loaded yet. -/
def closed (storage : σ) (scheme : Scheme) : Vault σ := ⟨storage, scheme, .anonymous⟩

/-- Forgets the session alone. -/
def reset (v : Vault σ) : Vault σ := { v with session := .anonymous }

def shown (v : Vault σ) : String :=
  "CredentialStore \x7b scheme: " ++ v.scheme.shown ++ ", session: " ++ v.session.shown ++
    ", .. \x7d"

variable [Storage σ]

/-- The record in the storage, if there is one that can be read. -/
def readRecord (v : Vault σ) : Option Record × Vault σ :=
  let (answer, storage) := Storage.get credentialsKey v.storage
  let record := match answer with
    | .ok (some text) => (Record.read text v.scheme).toOption
    | _ => none
  (record, { v with storage })

/-- Makes the stored record the session. Says whether there was one. -/
def load (v : Vault σ) : Bool × Vault σ :=
  match v.readRecord with
  | (some r, v) => (true, { v with session := .of r.userId r.token r.secret })
  | (none, v) => (false, v)

def save (userId token : String) (secret : Secret) (v : Vault σ) : Vault σ :=
  let record : Record := ⟨userId, token, some secret⟩
  let (_, storage) := Storage.set credentialsKey (record.print v.scheme) v.storage
  { v with storage, session := .of userId token (some secret) }

/-- Forgets the session and the stored record. -/
def clear (v : Vault σ) : Vault σ :=
  let (_, storage) := Storage.remove credentialsKey v.storage
  { v with storage, session := .anonymous }

/-- The stored secret, if it is that user's. -/
def storedSecret (userId : String) (v : Vault σ) : Option Secret × Vault σ :=
  let (record, v) := v.readRecord
  ((record.filter fun r => r.userId == userId).bind (·.secret), v)

end Vault
end SignedConsole
