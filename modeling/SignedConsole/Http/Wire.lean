import SignedConsole.Base64
import SignedConsole.Http.Headers
import SignedConsole.Text.Utf8
import SignedConsole.Url

namespace SignedConsole

inductive Method where
  | get
  | post
  | delete
deriving DecidableEq

def Method.name : Method → String
  | .get => "GET"
  | .post => "POST"
  | .delete => "DELETE"

/-- A request as it goes out. -/
structure Request where
  method : Method
  url : Url
  headers : Headers
  body : Option String
deriving DecidableEq

/-- A request as it is put together, its address still a text. -/
structure Draft where
  method : Method
  address : String
  headers : Headers
  body : Option String
deriving DecidableEq

/-- The value of a header that tells a name and a password. -/
def UserInfo.basic (u : UserInfo) : String :=
  "Basic " ++ Base64.encode (Text.utf8 (u.name ++ ":" ++ u.password.getD ""))

/-- The header for whoever an address names. It goes out in place of the name. -/
def Url.basic (u : Url) : Headers :=
  u.user.toList.map fun user => ("authorization", user.basic)

/-- The request of a draft, if it can be sent at all. What the address tells about who asks comes
before the headers of the draft. -/
def Draft.request? (d : Draft) : Option Request := do
  let url ← Url.parse? d.address
  if d.headers.all fun h => Headers.isValue h.2 then
    some ⟨d.method, url, url.basic ++ d.headers, d.body⟩
  else none

/-- What a server does with a request. A reply is the final one: where it sends the program on to
another address, what follows from there is left out. -/
inductive Answer where
  | reply (status : Nat) (body : Bytes)
  /-- A reply that breaks off in its body. -/
  | cutOff (status : Nat)
  /-- The connection is closed without a reply. -/
  | hangUp

/-- A reply as it comes in. A body that broke off is no body. -/
structure Reply where
  status : Nat
  body : Option Bytes

namespace Reply

def isSuccess (r : Reply) : Bool := 200 ≤ r.status && r.status ≤ 299

/-- The body as text, without a byte order mark. It is read as UTF-8, whatever character set the
reply names for it. -/
def text? (r : Reply) : Option String :=
  r.body.map fun bs =>
    Text.ofUtf8Lossy (if [0xEF, 0xBB, 0xBF].isPrefixOf bs then bs.drop 3 else bs)

end Reply

/-- A server that may be out of reach, the answers that it has ready, and the requests that it has
received, in order. -/
structure Wire where
  reachable : Bool
  answers : List Answer
  /-- The answer to a request for which none is ready. -/
  otherwise : Answer
  received : List Request

namespace Wire

def withoutBody (status : Nat) : Bool := status == 204 || status == 304

/-- What comes back for an answer. -/
def replyOf : Answer → Option Reply
  | .reply status body => some ⟨status, some (if withoutBody status then [] else body)⟩
  | .cutOff status => some ⟨status, if withoutBody status then some [] else none⟩
  | .hangUp => none

/-- Sends a request and waits for the reply. -/
def deliver (request : Request) (w : Wire) : Option Reply × Wire :=
  if w.reachable then
    let w := { w with received := w.received ++ [request] }
    match w.answers with
    | [] => (replyOf w.otherwise, w)
    | a :: answers => (replyOf a, { w with answers })
  else (none, w)

end Wire
end SignedConsole
