import SignedConsole.Api.Call
import SignedConsole.Credential.Signing

namespace SignedConsole

/-- What becomes of a call that should be signed while the session has no secret for it. -/
inductive UnsignedPolicy where
  /-- It is sent unsigned. -/
  | failOpen
  /-- It is refused. -/
  | failClosed
deriving DecidableEq

namespace UnsignedPolicy

def shown : UnsignedPolicy → String
  | .failOpen => "FailOpen"
  | .failClosed => "FailClosed"

def name : UnsignedPolicy → String
  | .failOpen => "fail-open"
  | .failClosed => "fail-closed"

/-- The written names. -/
def table : List (String × UnsignedPolicy) :=
  [("fail-open", .failOpen), ("fail-closed", .failClosed)]

end UnsignedPolicy

/-- The base of all addresses has no slash at its end. -/
def withoutSlashes (url : String) : String :=
  String.ofList ((url.toList.reverse.dropWhile (· == '/')).reverse)

/-- A client of the platform. Where its base is no address, all that it asks for fails at the
network. A base whose host is not ASCII is none. -/
structure Client where
  baseUrl : String
  signer : Scheme
  policy : UnsignedPolicy

namespace Client

def of (baseUrl : String) (signer : Scheme) (policy : UnsignedPolicy) : Client :=
  ⟨withoutSlashes baseUrl, signer, policy⟩

def shown (c : Client) : String :=
  "ConsoleClient \x7b base_url: " ++ Text.quoted c.baseUrl ++ ", scheme: " ++ c.signer.shown ++
    ", policy: " ++ c.policy.shown ++ ", .. \x7d"

def contentType : String × String := ("content-type", "application/json")

def bearer (session : Session) : Headers :=
  session.token.toList.map fun t => ("authorization", "Bearer " ++ t)

/-- The headers that sign a body, or none where the policy allows it. -/
def signature (c : Client) (now : Nat) (session : Session) (body : String) :
    Except CallError Headers :=
  match Signing.headers c.signer now body session with
  | .error e => .error (.signing e)
  | .ok (some headers) => .ok headers
  | .ok none =>
    match c.policy with
    | .failOpen => .ok []
    | .failClosed => .error .missingSigningMaterial

/-- The request of a call, for the session of the moment. -/
def draft (c : Client) (now : Nat) (session : Session) (call : Call α) :
    Except CallError Draft := do
  let body := call.body.map Json.print
  let signature ← if call.isSensitive then c.signature now session (body.getD "") else .ok []
  return ⟨call.method, c.baseUrl ++ call.path, contentType :: bearer session ++ signature, body⟩

/-- Sends a draft once. -/
def exchange (d : Draft) (w : Wire) : Option Reply × Wire :=
  match d.request? with
  | some request => w.deliver request
  | none => (none, w)

/-- Makes a call. What is signed is the very text that is sent, and a call that has to be signed and
cannot be is given up before anything leaves. -/
def run (c : Client) (now : Nat) (session : Session) (call : Call α) (w : Wire) :
    Except CallError α × Wire :=
  match c.draft now session call with
  | .error e => (.error e, w)
  | .ok d =>
    match exchange d w with
    | (none, w) => (.error .network, w)
    | (some reply, w) => (call.outcome reply, w)

/-- The clock once a call has been made. Only a signature can have read it. -/
def clockAfter (c : Client) (clock : Clock) (session : Session) (call : Call α) : Clock :=
  if call.isSensitive && Signing.readsClock c.signer session then clock.next else clock

/-- The question whether the platform is up, which carries no credentials. -/
def healthDraft (c : Client) : Draft := ⟨.get, c.baseUrl ++ "/health", [], none⟩

/-- Asks whether the platform is up. The body of the reply is not read. -/
def health (c : Client) (w : Wire) : Except CallError Bool × Wire :=
  match exchange c.healthDraft w with
  | (none, w) => (.error .network, w)
  | (some reply, w) => (.ok reply.isSuccess, w)

end Client
end SignedConsole
