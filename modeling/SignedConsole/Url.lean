import SignedConsole.Text.Blank
import SignedConsole.Text.Digits
import SignedConsole.Text.Lower
import SignedConsole.Text.Utf8

namespace SignedConsole

/-- Who asks, as an address may tell in front of its host. -/
structure UserInfo where
  name : String
  password : Option String
deriving DecidableEq

structure Url where
  /-- Whether the connection is encrypted. -/
  secure : Bool
  user : Option UserInfo
  host : String
  /-- Absent where it is the usual one. -/
  port : Option Nat
  path : List String
  query : Option String
deriving DecidableEq

namespace Url

def upperHexDigit (n : Nat) : Char := (Text.hexDigit n).toUpper

def percentByte (b : UInt8) : List Char :=
  ['%', upperHexDigit (b.toNat / 16), upperHexDigit (b.toNat % 16)]

/-- Spells the characters of a set, byte by byte, with percent signs. -/
def percentEncode (set : Char → Bool) (cs : List Char) : String :=
  String.ofList (cs.flatMap fun c =>
    if set c then (String.utf8EncodeChar c).flatMap percentByte else [c])

def isControl (c : Char) : Bool := c.toNat < 0x20 || 0x7E < c.toNat

/-- What is spelled out in a path segment. -/
def pathSet (c : Char) : Bool := isControl c || " \"#<>?\x60\x7b\x7d".toList.contains c

/-- What is spelled out in a query. -/
def querySet (c : Char) : Bool := isControl c || " \"#<>'".toList.contains c

def isSlash (c : Char) : Bool := c == '/' || c == '\\'

/-- Cuts off what surrounds the address and the line breaks in it. -/
def cleaned (text : String) : List Char :=
  let outer := fun (c : Char) => c.toNat ≤ 0x20
  let cs := ((text.toList.dropWhile outer).reverse.dropWhile outer).reverse
  cs.filter fun c => c != '\t' && c != '\n' && c != '\r'

/-- The schemes of the web, and whether connections are encrypted under them. -/
def schemes : List (String × Bool) := [("http", false), ("https", true)]

/-- Whether the connection is encrypted by the scheme, and what follows that, if it is the web's. -/
def afterScheme? (cs : List Char) : Option (Bool × List Char) :=
  match cs.dropWhile (· != ':') with
  | [] => none
  | _ :: rest =>
    let name := Text.lowerAscii (String.ofList (cs.takeWhile (· != ':')))
    (schemes.lookup name).map fun secure => (secure, rest)

/-- What stands behind the last at sign. -/
def afterCredentials (cs : List Char) : List Char :=
  match (Text.splitWith (· == '@') cs).reverse with
  | last :: _ => last
  | [] => cs

/-- What stands before the last at sign. -/
def credentials (cs : List Char) : List Char :=
  cs.take (cs.length - (afterCredentials cs).length - 1)

/-- The byte that two hexadecimal digits spell. -/
def byte? (a b : Char) : Option UInt8 := do
  return UInt8.ofNat (16 * (← Text.hexValue? a) + (← Text.hexValue? b))

/-- The bytes that a text stands for when its percent signs are read. -/
def percentDecode : List Char → Bytes
  | '%' :: a :: b :: cs =>
    match byte? a b with
    | some byte => byte :: percentDecode cs
    | none => String.utf8EncodeChar '%' ++ percentDecode (a :: b :: cs)
  | c :: cs => String.utf8EncodeChar c ++ percentDecode cs
  | [] => []

/-- Who the credentials of an address name: nobody if they are empty or if the name is no text. An
empty password is none, and so is one that is no text. -/
def userInfo? (cs : List Char) : Option UserInfo := do
  let name ← Text.ofUtf8? (percentDecode (cs.takeWhile (· != ':')))
  let password := match cs.dropWhile (· != ':') with
    | [] | [_] => none
    | _ :: password => Text.ofUtf8? (percentDecode password)
  if name.isEmpty && password.isNone then none else return ⟨name, password⟩

/-- What a host name cannot contain. -/
def isForbidden (c : Char) : Bool :=
  c.toNat ≤ 0x20 || 0x7E < c.toNat || "#/:<>?@[\\]^|%".toList.contains c

/-- A bracketed address, or a name without forbidden characters. Names keep their spelling but for the
case of letters, those that are numbers too. -/
def host? (cs : List Char) : Option String :=
  match cs with
  | [] => none
  | '[' :: rest =>
    if rest.getLast? == some ']' && rest.dropLast.all (fun c => (Text.hexValue? c).isSome ||
        c == ':' || c == '.') then some (Text.lowerAscii (String.ofList cs))
    else none
  | _ => if cs.any isForbidden then none else some (Text.lowerAscii (String.ofList cs))

def usualPort (secure : Bool) : Nat := if secure then 443 else 80

/-- The port behind the colon; the usual one and an empty one are left away. -/
def port? (secure : Bool) (cs : List Char) : Option (Option Nat) :=
  if cs.isEmpty then some none
  else if cs.all Text.isDigit then
    let n := Text.digitsValue cs
    if 65535 < n then none else some (if n == usualPort secure then none else some n)
  else none

/-- Host and port of an authority. Colons inside brackets belong to the host. -/
def authority? (secure : Bool) (cs : List Char) : Option (String × Option Nat) := do
  let hostEnd := match cs with
    | '[' :: _ => (cs.takeWhile (· != ']')).length + 1
    | _ => (cs.takeWhile (· != ':')).length
  let host ← host? (cs.take hostEnd)
  match cs.drop hostEnd with
  | [] => return (host, none)
  | ':' :: digits => return (host, ← port? secure digits)
  | _ => none

/-- One point, spelled either way. -/
def isHere (segment : String) : Bool :=
  let s := Text.lowerAscii segment
  s == "." || s == "%2e"

/-- Two points, spelled either way. -/
def isAbove (segment : String) : Bool :=
  let s := Text.lowerAscii segment
  s == ".." || s == ".%2e" || s == "%2e." || s == "%2e%2e"

/-- Goes through the segments onto those kept so far. Points at the end leave an empty segment. -/
def resolve (kept : List String) : List String → List String
  | [] => kept
  | s :: rest =>
    let kept := if isAbove s then kept.dropLast else if isHere s then kept else kept ++ [s]
    let ends := rest.isEmpty && (isAbove s || isHere s)
    resolve (if ends then kept ++ [""] else kept) rest

/-- The segments of a path text, encoded and resolved. -/
def segments (cs : List Char) : List String :=
  let cs := match cs with
    | c :: rest => if isSlash c then rest else cs
    | [] => []
  resolve [] ((Text.splitWith isSlash cs).map (percentEncode pathSet))

/-- The address that a text gives, if it is one of the web. White space and controls around it and
line breaks inside it do not count, and a backslash is a slash. A host is a bracketed address or
consists of ASCII characters; names that have to be spelled in these first are taken for no address.
-/
def parse? (text : String) : Option Url := do
  let (secure, cs) ← afterScheme? (cleaned text)
  let cs := cs.dropWhile isSlash
  let ends := fun c => isSlash c || c == '?' || c == '#'
  let whole := cs.takeWhile fun c => !ends c
  let (host, port) ← authority? secure (afterCredentials whole)
  let rest := (cs.dropWhile fun c => !ends c).takeWhile (· != '#')
  let path := segments (rest.takeWhile (· != '?'))
  let query := match rest.dropWhile (· != '?') with
    | [] => none
    | _ :: q => some (percentEncode querySet q)
  return ⟨secure, userInfo? (credentials whole), host, port, path, query⟩

/-- Host and port. -/
def authority (u : Url) : String :=
  u.host ++ match u.port with
    | some n => ":" ++ Text.decimal n
    | none => ""

/-- What follows the host. -/
def target (u : Url) : String :=
  "/" ++ String.intercalate "/" u.path ++ match u.query with
    | some q => "?" ++ q
    | none => ""

/-- The address as it is sent. Who asks is not told in it. -/
def render (u : Url) : String :=
  (if u.secure then "https://" else "http://") ++ u.authority ++ u.target

end Url
end SignedConsole
