import SignedConsole.Http.Message
import SignedConsole.Program.Run
import Std.Async.DNS
import Std.Async.TCP
import Std.Time

namespace SignedConsole.Machine

open Std.Async Std.Net

def bytesOf (bs : ByteArray) : Bytes := bs.data.toList

def byteArray (bs : Bytes) : ByteArray := ⟨bs.toArray⟩

def socketAddress (address : IPAddr) (port : Nat) : SocketAddress :=
  match address with
  | .v4 addr => .v4 ⟨addr, port.toUInt16⟩
  | .v6 addr => .v6 ⟨addr, port.toUInt16⟩

/-- A host as it is looked up: an address of the newer kind stands without its brackets. -/
def lookupName (host : String) : String :=
  String.ofList (host.toList.filter fun c => c != '[' && c != ']')

def receiveAll (socket : TCP.Socket.Client) : IO ByteArray := do
  let mut received := ByteArray.empty
  repeat
    match ← (socket.recv? 65536).block with
    | some piece => received := received ++ piece
    | none => break
  return received

/-- Sends a request over a connection of its own and waits for all of the answer. -/
def exchangeOver (address : SocketAddress) (request : Request) : IO Answer := do
  let socket ← TCP.Socket.Client.mk
  (socket.connect address).block
  (socket.send (byteArray request.bytes)).block
  return Answer.ofBytes (bytesOf (← receiveAll socket))

/-- Sends a request to the first address of its host. Whatever goes wrong is a missing answer, and so
is an encrypted connection, which there is none of here. -/
def send (request : Request) : IO Answer := do
  if request.url.secure then return .hangUp
  let port := request.url.port.getD (Url.usualPort request.url.secure)
  try
    let found ← (DNS.getAddrInfo (lookupName request.url.host) (toString port) none).block
    match found[0]? with
    | some address => exchangeOver (socketAddress address port) request
    | none => return .hangUp
  catch _ => return .hangUp

def readClock : IO Nat := do
  return (← Std.Time.Timestamp.now).toMillisecondsSinceUnixEpoch.val.toNat

/-- Puts what is found at a path onto a disk. -/
def loadAt (path : String) (d : Disk) : IO Disk := do
  try
    let content ← IO.FS.readBinFile path
    return (Disk.run (Disk.writeFile path (bytesOf content)) d).2
  catch e =>
    match e with
    | .inappropriateType _ 21 _ => return (Disk.run (Disk.makeDirectories path) d).2
    | _ => return d

/-- Puts a file and what lies above it onto a disk. -/
def load (d : Disk) (path : String) : IO Disk :=
  ((Path.upward path).reverse.filter fun p => !p.isEmpty).foldlM (fun d p => loadAt p d) d

def accessRight (bits : Nat) : IO.AccessRight :=
  ⟨bits &&& 4 != 0, bits &&& 2 != 0, bits &&& 1 != 0⟩

/-- Writes a file beside its place and moves it there. It gets its rights before its content. -/
def writeBack (p : Place) (f : File) : IO Unit := do
  let path := Path.ofNames true p
  let draft := path ++ ".tmp"
  IO.FS.createDirAll (Path.ofNames true p.dropLast)
  IO.FS.writeBinFile draft .empty
  IO.setAccessRights draft
    ⟨accessRight (f.mode / 64), accessRight (f.mode / 8), accessRight f.mode⟩
  IO.FS.writeBinFile draft (byteArray f.content)
  IO.FS.rename draft path

/-- Makes the files on the machine what a run has made of them. -/
def store (before after : Disk) : IO Unit := do
  for (p, f) in after.placed do
    if before.file? p ≠ some f then writeBack p f
  for (p, _) in before.placed do
    if (after.node? p).isNone then IO.FS.removeFile (Path.ofNames true p)

def readAll (input : IO.FS.Stream) : IO Bytes := do
  let mut all := ByteArray.empty
  repeat
    let piece ← input.read 65536
    if piece.isEmpty then break
    all := all ++ piece
  return bytesOf all

/-- A clock that has shown these readings and shows the last of them from then on. -/
def clockOf (readings : List Nat) : Clock := ⟨fun k => readings.getD k (readings.getLastD 0)⟩

/-- Runs the program with the answers so far, and again with one more while there are requests that
none of them is for. A request is signed with the reading that is taken before it. -/
partial def converse (s : Program.Start) (readings : List Nat) (answers : List Answer) :
    IO Program.Outcome := do
  let readings := readings ++ [← readClock]
  let wire : Wire := { reachable := true, answers, otherwise := .hangUp, received := [] }
  let r := Program.run { s with wire, now := clockOf readings }
  match r.wire.received[answers.length]? with
  | none => return r
  | some request => converse s readings (answers ++ [← send request])

/-- The input is read to the end before the program starts. -/
def start (args : List String) : IO Program.Start := do
  let environment : Environment :=
    ⟨← IO.getEnv "XDG_CONFIG_HOME", ← IO.getEnv "XDG_DATA_HOME", ← IO.getEnv "HOME"⟩
  let wire : Wire := ⟨true, [], .hangUp, []⟩
  let disk := Disk.empty (Path.names (← IO.currentDir).toString)
  let input ← match Invocation.ofArgs args with
    | .console _ => readAll (← IO.getStdin)
    | _ => pure []
  let s : Program.Start := ⟨args, environment, input, disk, wire, 0⟩
  let s := { s with disk := ← s.settingsFile?.toList.foldlM load s.disk }
  return { s with disk := ← s.furtherFiles.foldlM load s.disk }

end SignedConsole.Machine

open SignedConsole in
def main (args : List String) : IO UInt32 := do
  let s ← Machine.start args
  let r ← Machine.converse s [] []
  Machine.store s.disk r.disk
  let output ← IO.getStdout
  output.putStr r.output
  output.flush
  return r.exit.toUInt32
