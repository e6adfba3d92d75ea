import SignedConsole.Credential.Scheme
import SignedConsole.Credential.Session
import SignedConsole.Hmac
import SignedConsole.Http.Headers
import SignedConsole.Rsa.Signature

namespace SignedConsole

/-- What a clock shows each time that it is read, in milliseconds. -/
structure Clock where
  readings : Nat → Nat

namespace Clock

/-- A clock that stands still. -/
def still (n : Nat) : Clock := ⟨fun _ => n⟩

instance : Coe Nat Clock := ⟨still⟩

instance : OfNat Clock n := ⟨still n⟩

/-- What the clock shows when it is read next. -/
def shown (c : Clock) : Nat := c.readings 0

/-- The clock once it has been read. -/
def next (c : Clock) : Clock := ⟨fun k => c.readings (k + 1)⟩

end Clock

namespace Signing

def signatureHeader : String := "X-Combinator-Signature"
def userIdHeader : String := "X-Combinator-User-ID"
def timestampHeader : String := "X-Combinator-Timestamp"

/-- What is signed: the body and right behind it the time. -/
def timestamped (body timestamp : String) : String := body ++ timestamp

def hmacSignature (secret body timestamp : String) : String :=
  Base64.encodeUrl (Hmac.mac (Text.utf8 secret) (Text.utf8 (timestamped body timestamp)))

/-- A reading of the clock as text, in milliseconds. -/
def timestamp (now : Nat) : String := Text.decimal now

/-- The headers that sign a body at a time for a session. A session without the secret that the
scheme needs has none, which is no error. -/
def headers (scheme : Scheme) (now : Nat) (body : String) (session : Session) :
    Except CredentialError (Option Headers) :=
  match scheme, session.secret with
  | .hmac, some secret =>
    match session.userId with
    | some userId =>
      let time := timestamp now
      .ok (some [(signatureHeader, hmacSignature secret.text body time), (userIdHeader, userId),
        (timestampHeader, time)])
    | none => .ok none
  | .rsa, some secret => do
    let signature ← Rsa.signature secret.text body
    return some [(signatureHeader, signature)]
  | _, none => .ok none

/-- Whether signing for a session takes a reading of the clock. -/
def readsClock (scheme : Scheme) (session : Session) : Bool :=
  match scheme with
  | .hmac => session.secret.isSome && session.userId.isSome
  | .rsa => false

end Signing
end SignedConsole
