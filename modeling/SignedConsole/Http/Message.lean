import SignedConsole.Http.Wire

namespace SignedConsole

/-- A line of a message head. -/
def headLine (text : String) : String := text ++ "\r\n"

/-- The headers that the connection itself needs. -/
def Request.framing (r : Request) : Headers :=
  [("host", r.url.authority), ("accept", "*/*"), ("connection", "close")] ++
    r.body.toList.map fun body => ("content-length", Text.decimal (Text.utf8 body).length)

/-- The request as it goes over a connection. -/
def Request.bytes (r : Request) : Bytes :=
  let first := r.method.name ++ " " ++ r.url.target ++ " HTTP/1.1"
  let headers := (r.framing ++ r.headers).map fun h => h.1 ++ ": " ++ h.2
  Text.utf8 (String.join ((first :: headers ++ [""]).map headLine) ++ r.body.getD "")

/-- What stands before and behind the first place of a mark. -/
def splitAtMark (mark : Bytes) : Bytes → Option (Bytes × Bytes)
  | [] => none
  | b :: bs =>
    if mark.isPrefixOf (b :: bs) then some ([], (b :: bs).drop mark.length)
    else (splitAtMark mark bs).map fun (front, rest) => (b :: front, rest)

def lineEnd : Bytes := [13, 10]

/-- The status and the headers in the lines of a head. -/
def readHead : List String → Option (Nat × Headers)
  | [] => none
  | first :: lines =>
    match Text.words first with
    | version :: status :: _ =>
      if version.startsWith "HTTP/1." && status.toList.all Text.isDigit then
        some (Text.digitsValue status.toList, lines.filterMap fun line =>
          match line.toList.dropWhile (· != ':') with
          | [] => none
          | _ :: value =>
            some (String.ofList (line.toList.takeWhile (· != ':')),
              Text.trim (String.ofList value)))
      else none
    | _ => none

/-- The size in front of a chunk. What may follow it does not count. -/
def chunkSize? (line : Bytes) : Option Nat := do
  let digits := ((Text.ofUtf8Lossy line).toList.takeWhile fun c => c != ';' && !Text.isBlank c)
  if digits.isEmpty then none
  else digits.foldlM (fun n c => return 16 * n + (← Text.hexValue? c)) 0

/-- Joins chunks up to the empty one. The first argument bounds their number. -/
def joinChunks : Nat → Bytes → Option Bytes
  | 0, _ => none
  | chunks + 1, bs => do
    let (line, rest) ← splitAtMark lineEnd bs
    let size ← chunkSize? line
    if size = 0 then return []
    if rest.length < size then none
    else return rest.take size ++ (← joinChunks chunks (rest.drop (size + lineEnd.length)))

/-- The body behind a head, if all of it has come in. A reply that does not tell its length goes on
to the end, since each connection is used for one request. -/
def readBody (headers : Headers) (rest : Bytes) : Option Bytes :=
  if (headers.get? "transfer-encoding").any fun v => Text.lowerAscii v == "chunked" then
    joinChunks rest.length rest
  else match headers.get? "content-length" with
    | some n =>
      let size := Text.digitsValue n.toList
      if rest.length < size then none else some (rest.take size)
    | none => some rest

/-- What a server has done that sent these bytes and closed the connection. -/
def Answer.ofBytes (bs : Bytes) : Answer :=
  match splitAtMark (lineEnd ++ lineEnd) bs with
  | none => .hangUp
  | some (head, rest) =>
    match readHead (((Text.ofUtf8Lossy head).splitOn "\r\n")) with
    | none => .hangUp
    | some (status, headers) =>
      match readBody headers rest with
      | some body => .reply status body
      | none => .cutOff status

end SignedConsole
