import SignedConsole.Console.Terminal

namespace SignedConsole.Account

open Attempt (ask call surely tell)

def registrationLines (r : Registration) : List Line :=
  [.blank, .success "Registration successful!", .info ("User ID: " ++ r.userId),
   .info ("Email: " ++ r.email), .blank] ++
    if r.secretKey.isEmpty then
      [.warning "No secret key was issued; signed commands will fail until you login with one"]
    else
      [.success "Secret key saved locally", .blank,
       .warning "=== IMPORTANT: Backup your secret key ===",
       .warning "If you lose your local data, you will need this key!", .blank, .info r.secretKey]

def loginLines (r : Grant) : List Line :=
  [.blank, .success "Login successful!", .info ("User ID: " ++ r.userId)]

def logoutLines : List Line :=
  [.success "Logged out successfully", .info "Credentials cleared from local storage"]

def resetLines (r : Notice) : List Line :=
  [.success (if r.message.isEmpty then "Password reset successfully" else r.message),
   .info "You can now login with your new password"]

def statusLines (session : Session) (scheme : Scheme) (client : Client) (online : Bool) :
    List Line :=
  [.blank, .info "=== System Status ===",
   match session.userId with
   | some user => .success ("User: " ++ user)
   | none => .warning "User: Not logged in",
   if session.isAuthenticated then .success "Token: Active" else .warning "Token: None",
   if session.canSign then .success "Secret key: Loaded" else .warning "Secret key: Missing",
   .plain ("Signing: " ++ scheme.name ++ " (" ++ client.policy.shown ++ ")"),
   if online then .success ("API: " ++ client.baseUrl ++ " (online)")
   else .error ("API: " ++ client.baseUrl ++ " (offline)"),
   .blank]

def askEmail : Attempt σ String := ask "Enter email:" false

/-- Asks for the address and has a code sent there. -/
def requestCode : Attempt σ String := do
  let email ← askEmail
  tell [.info "Sending verification code..."]
  let _ ← call (.sendCode email)
  tell [.success "Verification code sent to your email"]
  return email

/-- Asks for what an account needs, and for the account. -/
def requestRegistration : Attempt σ Registration := do
  let email ← requestCode
  let code ← ask "Enter verification code:" false
  let password ← ask "Enter password:" true
  call (.register email code password)

/-- Asks for address and password, and whether they are an account's. -/
def requestGrant : Attempt σ Grant := do
  let email ← askEmail
  let password ← ask "Enter password:" true
  call (.login email password)

/-- Makes new credentials the stored ones and the session. -/
def save [Storage σ] (userId token : String) (secret : Secret) : Attempt σ Unit :=
  surely (Console.changeVault fun v => ((), v.save userId token secret))

variable {σ : Type} [Host σ]

def register : Console σ Unit := Console.attempt "Registration failed" do
  let r ← requestRegistration
  save r.userId r.token ⟨r.secretKey⟩
  tell (registrationLines r)

/-- Reads a private key, which spans several lines, from a file. -/
def readKeyFile (path : String) : Attempt σ Secret := do
  match Host.readText path (← get).vault.storage with
  | .ok pem => return ⟨pem⟩
  | .error e => throw (.unreadable path e)

/-- Asks for the secret in the form that the scheme needs. -/
def askSecret : Attempt σ Secret := do
  match (← get).vault.scheme with
  | .hmac => return ⟨← ask "Enter your secret key (sk_...):" true⟩
  | .rsa => readKeyFile (← ask "Enter path to your private key (PEM):" false)

/-- Looks for the secret that is kept for a user, and tells whether there is one. -/
def seekSecret (userId : String) : Console σ (Option Secret) := do
  let found ← Console.changeVault (Vault.storedSecret userId)
  Console.tell [match found with
    | some _ => .info "Secret key loaded from local storage"
    | none => .warning "No stored secret key found for this user"]
  return found

/-- The secret kept for a user, or else the one asked for. -/
def findSecret (userId : String) : Attempt σ Secret := do
  match ← surely (seekSecret userId) with
  | some secret => return secret
  | none => askSecret

/-- Asks, calls, and only then changes who is logged in. -/
def login : Console σ Unit := Console.attempt "Login failed" do
  let r ← requestGrant
  let secret ← findSecret r.userId
  save r.userId r.token secret
  tell (loginLines r)

def logout : Console σ Unit := do
  Console.changeVault fun v => ((), v.clear)
  Console.tell logoutLines

def resetPassword : Console σ Unit := Console.attempt "Password reset failed" do
  let email ← requestCode
  let code ← ask "Enter verification code:" false
  let newPassword ← ask "Enter new password:" true
  let r ← call (.resetPassword email code newPassword)
  tell (resetLines r)

def whoami : Console σ Unit := do
  Console.tell [.info (← Console.session).user]

/-- Asks whether the platform is up; that it cannot be asked counts as no. -/
def isOnline : Console σ Bool := do
  let d ← get
  let (r, wire) := d.client.health d.wire
  set { d with wire }
  return r.toOption.getD false

def status : Console σ Unit := do
  let session ← Console.session
  let online ← isOnline
  let d ← get
  Console.tell (statusLines session d.vault.scheme d.client online)

end SignedConsole.Account
