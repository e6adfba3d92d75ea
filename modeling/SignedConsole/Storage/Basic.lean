import SignedConsole.Credential.Error

namespace SignedConsole

/-- Where texts are kept under keys. Every operation may be refused; what a refusal leaves behind is
up to the storage. -/
class Storage (σ : Type) where
  get : String → σ → Except CredentialError (Option String) × σ
  set : String → String → σ → Except CredentialError Unit × σ
  remove : String → σ → Except CredentialError Unit × σ

end SignedConsole
