import SignedConsole.Credential.Scheme
import SignedConsole.Credential.Secret
import SignedConsole.Json.Printer
import SignedConsole.Json.Reader
import SignedConsole.Json.Shape

namespace SignedConsole

/-- The stored form of credentials. Its secret goes by the name that the scheme gives it, so a
record written under one scheme has no secret under the other. -/
structure Record where
  userId : String
  token : String
  secret : Option Secret
deriving BEq

namespace Record

/-- The members with their names ascending. -/
def toJson (r : Record) (scheme : Scheme) : Json :=
  let secret := r.secret.toList.map fun s => (scheme.secretField, Json.ofString s.text)
  .ofMembers (secret ++ [("token", .ofString r.token), ("userId", .ofString r.userId)])

def print (r : Record) (scheme : Scheme) : String := (r.toJson scheme).print

/-- The text of a member that stands exactly once. -/
def onlyText? (members : List (Option String × Json)) (name : String) : Option String :=
  match members.filter fun m => m.1 == some name with
  | [m] => m.2.text?
  | _ => none

/-- The record in a document. Other members do not count, and a secret that is no text or empty is
as good as none. -/
def ofJson? (scheme : Scheme) (j : Json) : Option Record :=
  match j with
  | .object members =>
    if j.isValue then do
      let userId ← onlyText? members "userId"
      let token ← onlyText? members "token"
      let secret := (j.lastMember? scheme.secretField).bind Json.text?
      return ⟨userId, token, (secret.filter fun s => !s.isEmpty).map Secret.mk⟩
    else none
  | _ => none

def read (text : String) (scheme : Scheme) : Except CredentialError Record :=
  match (Json.read text).bind (ofJson? scheme) with
  | some r => .ok r
  | none => .error (.malformed "no credential record")

end Record
end SignedConsole
