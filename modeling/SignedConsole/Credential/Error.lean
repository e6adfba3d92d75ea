namespace SignedConsole

/-- Why credentials cannot be read, kept or used for a signature. -/
inductive CredentialError where
  | invalidKey (reason : String)
  | signing (reason : String)
  | encoding (reason : String)
  | unknownScheme (name : String)
  | storage (reason : String)
  | malformed (reason : String)
deriving DecidableEq

namespace CredentialError

def message : CredentialError → String
  | .invalidKey reason => "invalid signing key: " ++ reason
  | .signing reason => "cannot sign request: " ++ reason
  | .encoding reason => "encoding error: " ++ reason
  | .unknownScheme name => "unknown signing scheme: " ++ name
  | .storage reason => "storage error: " ++ reason
  | .malformed reason => "serialization error: " ++ reason

/-- Whether the error comes from making a signature. -/
def isSigningFailure : CredentialError → Bool
  | .invalidKey _ | .signing _ | .encoding _ => true
  | .unknownScheme _ | .storage _ | .malformed _ => false

end CredentialError
end SignedConsole
