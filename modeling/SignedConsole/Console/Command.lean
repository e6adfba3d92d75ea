import SignedConsole.Api.Resource
import SignedConsole.Text.Blank
import SignedConsole.Text.Lower

namespace SignedConsole

inductive DatabaseCommand where
  | list
  | get (id : String)
  | add
  | delete (id : String)
deriving DecidableEq

inductive StoreCommand where
  | list
  | add
  | delete (id : String)
deriving DecidableEq

inductive WorkerCommand where
  | list
  | add
  | get (id : String) (offset : Nat)
  | delete (id : String)
  | variables (id : String)
  | setVariables (id : String)
  | secrets (id : String)
  | setSecrets (id : String)
deriving DecidableEq

inductive DomainCommand where
  | list
  | add
  | get (id : String)
  | delete (id : String)
deriving DecidableEq

/-- A line about a resource that names no command of it, with the usage to tell. -/
abbrev OrUsage (α : Type) := Except String α

inductive Command where
  | nothing
  | help
  | clear
  | register
  | login
  | logout
  | resetPassword
  | whoami
  | status
  | leave
  | databases (c : OrUsage DatabaseCommand)
  | stores (c : OrUsage StoreCommand)
  | workers (c : OrUsage WorkerCommand)
  | domains (c : OrUsage DomainCommand)
  | unknown (name : String)

/-- A whole number of 64 bits, with or without a plus sign. -/
def nat64? (word : String) : Option Nat :=
  let ds := match word.toList with
    | '+' :: ds => ds
    | ds => ds
  if ds.isEmpty || !ds.all Text.isDigit then none
  else
    let n := Text.digitsValue ds
    if n ≤ maxNat64 then some n else none

def DatabaseCommand.ofWords : List String → OrUsage DatabaseCommand
  | "list" :: _ => .ok .list
  | "get" :: id :: _ => .ok (.get id)
  | "add" :: _ => .ok .add
  | "delete" :: id :: _ => .ok (.delete id)
  | ["get"] => .error "rdb get <id>"
  | ["delete"] => .error "rdb delete <id>"
  | _ => .error "rdb [list|get|add|delete]"

def StoreCommand.ofWords : List String → OrUsage StoreCommand
  | "list" :: _ => .ok .list
  | "add" :: _ => .ok .add
  | "delete" :: id :: _ => .ok (.delete id)
  | ["delete"] => .error "kv delete <id>"
  | _ => .error "kv [list|add|delete]"

def WorkerCommand.ofWords : List String → OrUsage WorkerCommand
  | "list" :: _ => .ok .list
  | "add" :: _ => .ok .add
  | ["get", id] => .ok (.get id 0)
  | "get" :: id :: offset :: _ =>
    match nat64? offset with
    | some n => .ok (.get id n)
    | none => .error "worker get <id> [offset]"
  | "delete" :: id :: _ => .ok (.delete id)
  | "env" :: id :: _ => .ok (.variables id)
  | "env:set" :: id :: _ => .ok (.setVariables id)
  | "secret" :: id :: _ => .ok (.secrets id)
  | "secret:set" :: id :: _ => .ok (.setSecrets id)
  | [sub] =>
    if ["get", "delete", "env", "env:set", "secret", "secret:set"].contains sub then
      .error ("worker " ++ sub ++ " <id>")
    else .error "worker [list|add|get|delete|env|env:set|secret|secret:set]"
  | _ => .error "worker [list|add|get|delete|env|env:set|secret|secret:set]"

def DomainCommand.ofWords : List String → OrUsage DomainCommand
  | "list" :: _ => .ok .list
  | "add" :: _ => .ok .add
  | "get" :: id :: _ => .ok (.get id)
  | "delete" :: id :: _ => .ok (.delete id)
  | ["get"] => .error "domain get <id>"
  | ["delete"] => .error "domain delete <id>"
  | _ => .error "domain [list|add|get|delete]"

namespace Command

def ofWords : List String → Command
  | [] => .nothing
  | first :: args =>
    match Text.lower first with
    | "help" => .help
    | "clear" => .clear
    | "register" => .register
    | "login" => .login
    | "logout" => .logout
    | "reset-password" => .resetPassword
    | "whoami" => .whoami
    | "status" => .status
    | "exit" => .leave
    | "quit" => .leave
    | "rdb" => .databases (DatabaseCommand.ofWords args)
    | "kv" => .stores (StoreCommand.ofWords args)
    | "worker" => .workers (WorkerCommand.ofWords args)
    | "domain" => .domains (DomainCommand.ofWords args)
    | other => .unknown other

/-- The first word is taken in any case, the others as they are, and words beyond what a command
takes do not count. -/
def ofLine (line : String) : Command := ofWords (Text.words line)

end Command
end SignedConsole
