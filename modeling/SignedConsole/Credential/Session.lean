import SignedConsole.Credential.Secret
import SignedConsole.Text.Quoted

namespace SignedConsole

/-- Who is logged in. An empty part is an absent one, so a part that is there is not empty. -/
structure Session where
  userId : Option String
  token : Option String
  secret : Option Secret
deriving BEq

namespace Session

def anonymous : Session := ⟨none, none, none⟩

def nonEmpty (s : String) : Option String := if s.isEmpty then none else some s

def of (userId token : String) (secret : Option Secret) : Session :=
  ⟨nonEmpty userId, nonEmpty token, secret.filter fun s => !s.isEmpty⟩

def isAuthenticated (s : Session) : Bool := s.token.isSome

/-- Whether the session holds what every scheme needs to sign. -/
def canSign (s : Session) : Bool := s.secret.isSome && s.userId.isSome

/-- The name that the session goes by. -/
def user (s : Session) : String := s.userId.getD "guest"

def shown (s : Session) : String :=
  "Session \x7b user_id: " ++ Text.quotedOption (s.userId.map Text.quoted) ++
    ", token: " ++ Text.quotedOption (s.token.map Text.quoted) ++
    ", secret: " ++ Text.quotedOption (s.secret.map fun _ => Secret.redacted) ++ " \x7d"

end Session
end SignedConsole
