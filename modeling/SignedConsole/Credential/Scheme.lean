import SignedConsole.Credential.Error
import SignedConsole.Text.Lower

namespace SignedConsole

/-- How requests are signed: with a shared secret, or with a private key. -/
inductive Scheme where
  | hmac
  | rsa
deriving DecidableEq

namespace Scheme

def name : Scheme → String
  | .hmac => "hmac"
  | .rsa => "rsa"

def shown : Scheme → String
  | .hmac => "Hmac"
  | .rsa => "Rsa"

/-- The member of a credential record that holds the secret. -/
def secretField : Scheme → String
  | .hmac => "secretKey"
  | .rsa => "privateKey"

/-- The written names. -/
def table : List (String × Scheme) := [("hmac", .hmac), ("rsa", .rsa)]

/-- The scheme of a name given by a user: the hash function may be named too, and ASCII case does
not count. -/
def ofName (text : String) : Except CredentialError Scheme :=
  let text := Text.lowerAscii text
  if text == "hmac" || text == "hmac-sha256" then .ok .hmac
  else if text == "rsa" || text == "rsa-sha256" then .ok .rsa
  else .error (.unknownScheme text)

end Scheme
end SignedConsole
