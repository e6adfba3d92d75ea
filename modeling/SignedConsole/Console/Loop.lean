import SignedConsole.Console.Account
import SignedConsole.Console.Domains
import SignedConsole.Console.Stores
import SignedConsole.Console.Workers

namespace SignedConsole

/-- Whether more lines are read. -/
inductive Next where
  | goOn
  | leave
deriving DecidableEq

/-- The commands, as they are explained. -/
def helpLines : List String :=
  ["  help                         - Show this help message",
   "  clear                        - Clear the terminal",
   "  register                     - Register a new account",
   "  login                        - Login to your account",
   "  logout                       - Logout from your account",
   "  reset-password               - Reset a forgotten password",
   "  whoami                       - Show current user",
   "  status                       - Show current status",
   "  exit                         - Leave the console",
   "",
   "  rdb list                     - List all RDB resources",
   "  rdb get <id>                 - Show an RDB resource",
   "  rdb add                      - Add a new RDB resource",
   "  rdb delete <id>              - Delete an RDB resource",
   "",
   "  kv list                      - List all KV resources",
   "  kv add                       - Add a new KV resource",
   "  kv delete <id>               - Delete a KV resource",
   "",
   "  worker list                  - List all workers",
   "  worker add                   - Create a new worker",
   "  worker get <id> [offset]     - Get worker details & versions",
   "  worker delete <id>           - Delete a worker",
   "  worker env <id>              - Show worker env vars",
   "  worker env:set <id>          - Set worker env vars",
   "  worker secret <id>           - Show worker secret keys",
   "  worker secret:set <id>       - Set worker secrets",
   "",
   "  domain list                  - List all custom domains",
   "  domain add                   - Add a new custom domain",
   "  domain get <id>              - Get domain status",
   "  domain delete <id>           - Delete a custom domain"]

def bannerLines : List String :=
  ["",
   "   ____                _     _             _",
   "  / ___|___  _ __ ___ | |__ (_)_ __   __ _| |_ ___  _ __",
   " | |   / _ \\| '_ \x60 _ \\| '_ \\| | '_ \\ / _\x60 | __/ _ \\| '__|",
   " | |__| (_) | | | | | | |_) | | | | | (_| | || (_) | |",
   "  \\____\\___/|_| |_| |_|_.__/|_|_| |_|\\__,_|\\__\\___/|_|"]

def helpHint : String := "Type \"help\" for available commands"

def version : String := "0.1.0"

/-- What a prompt for a command shows. -/
def promptFor (session : Session) : String := session.user ++ "@console:~$"

namespace Console

variable {σ : Type} [Host σ]

def help : Console σ Unit :=
  tell ([.blank, .info "Available Commands:", .blank] ++ helpLines.map Line.plain ++ [.blank])

def unknown (name : String) : Console σ Unit :=
  tell [.error ("Command not found: " ++ name), .info helpHint]

def execute : Command → Console σ Next
  | .nothing => return .goOn
  | .leave => return .leave
  | .help => do help; return .goOn
  | .clear => do record [.cleared]; return .goOn
  | .register => do Account.register; return .goOn
  | .login => do Account.login; return .goOn
  | .logout => do Account.logout; return .goOn
  | .resetPassword => do Account.resetPassword; return .goOn
  | .whoami => do Account.whoami; return .goOn
  | .status => do Account.status; return .goOn
  | .databases c => do authenticated (Databases.run c); return .goOn
  | .stores c => do authenticated (Stores.run c); return .goOn
  | .workers c => do authenticated (Workers.run c); return .goOn
  | .domains c => do authenticated (Domains.run c); return .goOn
  | .unknown name => do unknown name; return .goOn

/-- Runs one line. -/
def dispatch (line : String) : Console σ Next := execute (.ofLine line)

def greeting (restored : Bool) (user : String) : List Line :=
  bannerLines.map Line.info ++
    [.blank, .info ("Welcome to Combinator Console v" ++ version), .info helpHint, .blank] ++
    if restored then [.success ("Session restored for " ++ user), .blank] else []

/-- Reads and runs at most that many lines, each with a prompt for the user of the moment. -/
def loop : Nat → Console σ Unit
  | 0 => return ()
  | lines + 1 => do
    match ← readLine (promptFor (← session)) false with
    | none => return ()
    | some line =>
      match ← dispatch line with
      | .leave => return ()
      | .goOn => loop lines

/-- A whole run. A round of the loop takes at least one of the lines that are typed, and the last
round finds none. -/
def run (restored : Bool) : Console σ Unit := do
  tell (greeting restored (← session).user)
  loop ((← get).typed.length + 1)

end Console
end SignedConsole
