import SignedConsole.Console.Databases

namespace SignedConsole.Domains

open Attempt (ask call tell)

def domainLines (r : Domain) : List Line :=
  [.success ("ID: " ++ r.id), .plain ("  Domain: " ++ r.name), .plain ("  Target: " ++ r.target),
   .plain ("  Status: " ++ r.status)]

def listLines (domains : List Domain) : List Line :=
  [.blank, .info "=== Custom Domains ==="] ++
    if domains.isEmpty then [.warning "No custom domains found"]
    else domains.flatMap fun r => domainLines r ++ [.blank]

def detailLines (r : Domain) : List Line :=
  .blank :: domainLines r ++
    [.plain ("  TXT Name: " ++ r.recordName), .plain ("  TXT Value: " ++ r.recordValue)]

/-- A new domain is verified by a record that its owner has to set. -/
def verificationLines (r : Domain) : List Line :=
  [.blank, .warning "Domain verification required!", .blank,
   .info "Add this TXT record to your DNS:", .plain ("  Name:  " ++ r.recordName),
   .plain ("  Value: " ++ r.recordValue), .blank, .info ("ID: " ++ r.id),
   .warning ("Status: " ++ r.status), .blank, .info "Verification will run for 60 seconds..."]

def run : OrUsage DomainCommand → Console σ Unit
  | .ok .list => Console.attempt "Failed to list domains" do
    tell (listLines (← call .listDomains))
  | .ok .add => Console.attempt "Failed to add domain" do
    let name ← ask "Enter your domain (e.g. api.example.com):" false
    let target ← ask "Enter target domain to proxy to:" false
    tell (verificationLines (← call (.createDomain name target)))
  | .ok (.get id) => Console.attempt "Failed to get domain" do
    tell (detailLines (← call (.getDomain id)))
  | .ok (.delete id) => Console.attempt "Failed to delete domain" do
    call (.deleteDomain id)
    tell [.success "Domain deleted successfully"]
  | .error usage => Console.usage usage

end SignedConsole.Domains
