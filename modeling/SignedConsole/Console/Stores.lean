import SignedConsole.Console.Databases

namespace SignedConsole.Stores

open Attempt (ask call tell)

def storeLines (r : KeyValueStore) : List Line :=
  [.success ("ID: " ++ r.id), .plain ("  Type: " ++ r.kind), .plain ("  URL: " ++ r.url), .blank]

def listLines (stores : List KeyValueStore) : List Line :=
  [.blank, .info "=== KV Resources ==="] ++
    if stores.isEmpty then [.warning "No KV resources found"] else stores.flatMap storeLines

/-- A store may be made with a warning, which is told in place of the message. -/
def createdLines (r : Created) : List Line :=
  [.blank, .info ("ID: " ++ r.id),
   match r.error with
   | some warning => .warning warning
   | none => .success (r.message.getD "KV created")]

def run : OrUsage StoreCommand → Console σ Unit
  | .ok .list => Console.attempt "Failed to list KVs" do
    tell (listLines (← call .listStores))
  | .ok .add => Console.attempt "Failed to create KV" do
    let kind ← ask "Enter KV type (redis/memory):" false
    let url ← ask "Enter KV URL:" false
    tell (createdLines (← call (.createStore kind url)))
  | .ok (.delete id) => Console.attempt "Failed to delete KV" do
    call (.deleteStore id)
    tell [.success "KV deleted successfully"]
  | .error usage => Console.usage usage

end SignedConsole.Stores
