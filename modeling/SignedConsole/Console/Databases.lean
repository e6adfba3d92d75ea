import SignedConsole.Console.Command
import SignedConsole.Console.Size
import SignedConsole.Console.Terminal

namespace SignedConsole

/-- Tells how a command about a resource is written. -/
def Console.usage (text : String) : Console σ Unit := tell [.error ("Usage: " ++ text)]

/-- Goes on only for a session with a token. -/
def Console.authenticated (act : Console σ Unit) : Console σ Unit := do
  if (← Console.session).isAuthenticated then act else tell [.error "Please login first"]

namespace Databases

open Attempt (ask call tell)

def databaseLines (r : Database) : List Line :=
  [.success ("ID: " ++ r.id), .plain ("  Name: " ++ r.name), .plain ("  URL: " ++ r.url),
   .plain ("  Size: " ++ Size.format r.size)]

def listLines (r : DatabaseList) : List Line :=
  [.blank, .info "=== RDB Resources ==="] ++
    (r.totalSize.toList.map fun size => .info ("Database Total: " ++ Size.format size)) ++
    .blank ::
    if r.databases.isEmpty then [.warning "No RDB resources found"]
    else r.databases.flatMap fun database => databaseLines database ++ [.blank]

def createdLines (r : Created) : List Line :=
  [.blank, .info ("ID: " ++ r.id), .success (r.message.getD "RDB created")]

def run : OrUsage DatabaseCommand → Console σ Unit
  | .ok .list => Console.attempt "Failed to list RDBs" do
    tell (listLines (← call .listDatabases))
  | .ok (.get id) => Console.attempt "Failed to get RDB" do
    tell (.blank :: databaseLines (← call (.getDatabase id)))
  | .ok .add => Console.attempt "Failed to create RDB" do
    let name ← ask "Enter RDB name:" false
    tell (createdLines (← call (.createDatabase name)))
  | .ok (.delete id) => Console.attempt "Failed to delete RDB" do
    call (.deleteDatabase id)
    tell [.success "RDB deleted successfully"]
  | .error usage => Console.usage usage

end Databases
end SignedConsole
