import SignedConsole.Credential.Error

namespace SignedConsole

/-- Why a call gives no result. What a library says about a lost connection or a reply that does not
read is left out, here and where it is shown. -/
inductive CallError where
  | network
  | server (status : Nat) (message : String)
  | invalidResponse
  | signing (cause : CredentialError)
  | missingSigningMaterial
deriving DecidableEq

namespace CallError

def message : CallError → String
  | .network => "network error"
  | .server _ message => message
  | .invalidResponse => "invalid response format"
  | .signing cause => "signing failed: " ++ cause.message
  | .missingSigningMaterial =>
    "no signing secret available for this session; login again with your secret key"

def status? : CallError → Option Nat
  | .server status _ => some status
  | _ => none

/-- Whether the call was given up before anything was sent. -/
def isLocal : CallError → Bool
  | .signing _ | .missingSigningMaterial => true
  | .network | .server .. | .invalidResponse => false

end CallError
end SignedConsole
