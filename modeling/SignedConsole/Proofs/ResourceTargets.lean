import SignedConsole.Proofs.Commands
import SignedConsole.Proofs.TextPieces
import SignedConsole.Proofs.Transmission

namespace SignedConsole

/-- The kinds of resources. -/
inductive Kind where
  | database
  | store
  | worker
  | domain
deriving DecidableEq

def Kind.name : Kind → String
  | database => "rdb"
  | store => "kv"
  | worker => "worker"
  | domain => "domain"

/-- What of a resource is asked for. -/
inductive Facet where
  | whole
  /-- What lies behind the first `skipped + 1` versions. -/
  | behind (skipped : Nat)
  | environment
  | secrets
deriving DecidableEq

namespace Facet

def ofOffset : Nat → Facet
  | 0 => whole
  | n + 1 => behind n

/-- What stands behind the name in a path. -/
def segments : Facet → List String
  | whole | behind _ => []
  | environment => ["env"]
  | secrets => ["secret"]

def query : Facet → Option String
  | behind skipped => some ("offset=" ++ Text.decimal (skipped + 1))
  | whole | environment | secrets => none

/-- What stands behind the name in an address. -/
def text : Facet → String
  | whole => ""
  | behind skipped => "?offset=" ++ Text.decimal (skipped + 1)
  | environment => "/env"
  | secrets => "/secret"

end Facet

/-- What a command is about: a resource of a kind, by its name. -/
structure Target where
  kind : Kind
  id : String
  facet : Facet
deriving DecidableEq

/-- The address of a target below the base. -/
def Target.address (t : Target) : String := "/api/" ++ t.kind.name ++ "/" ++ t.id ++ t.facet.text

/-- What a call is about, if it is about one resource. -/
def Call.target? : Call α → Option Target
  | getDatabase id | deleteDatabase id => some ⟨.database, id, .whole⟩
  | deleteStore id => some ⟨.store, id, .whole⟩
  | getWorker id offset => some ⟨.worker, id, .ofOffset offset⟩
  | deleteWorker id => some ⟨.worker, id, .whole⟩
  | workerVariables id | setVariable id _ => some ⟨.worker, id, .environment⟩
  | workerSecrets id | setSecret id _ => some ⟨.worker, id, .secrets⟩
  | getDomain id | deleteDomain id => some ⟨.domain, id, .whole⟩
  | sendCode .. | register .. | login .. | resetPassword .. | listDatabases | createDatabase _
  | listStores | createStore .. | listWorkers | createWorker _ | listDomains
  | createDomain .. => none

theorem Call.path_of_target {call : Call α} {t : Target} (h : call.target? = some t) :
    call.path = t.address := by
  have hdatabase : "/api/rdb/" = "/api/" ++ Kind.database.name ++ "/" := by decide
  have hstore : "/api/kv/" = "/api/" ++ Kind.store.name ++ "/" := by decide
  have hworker : "/api/worker/" = "/api/" ++ Kind.worker.name ++ "/" := by decide
  have hdomain : "/api/domain/" = "/api/" ++ Kind.domain.name ++ "/" := by decide
  cases call with
  | getDatabase id | deleteDatabase id =>
    cases h
    change "/api/rdb/" ++ id = _
    rw [Target.address, hdatabase, Facet.text, String.append_empty]
  | deleteStore id =>
    cases h
    change "/api/kv/" ++ id = _
    rw [Target.address, hstore, Facet.text, String.append_empty]
  | getWorker id offset =>
    cases h
    change "/api/worker/" ++ id ++ _ = _
    rw [Target.address, hworker]
    cases offset <;> rfl
  | deleteWorker id =>
    cases h
    change "/api/worker/" ++ id = _
    rw [Target.address, hworker, Facet.text, String.append_empty]
  | workerVariables id | setVariable id =>
    cases h
    change "/api/worker/" ++ id ++ "/env" = _
    rw [Target.address, hworker]
    rfl
  | workerSecrets id | setSecret id =>
    cases h
    change "/api/worker/" ++ id ++ "/secret" = _
    rw [Target.address, hworker]
    rfl
  | getDomain id | deleteDomain id =>
    cases h
    change "/api/domain/" ++ id = _
    rw [Target.address, hdomain, Facet.text, String.append_empty]
  | _ => cases h

def DatabaseCommand.target? : DatabaseCommand → Option Target
  | get id | delete id => some ⟨.database, id, .whole⟩
  | list | add => none

def StoreCommand.target? : StoreCommand → Option Target
  | delete id => some ⟨.store, id, .whole⟩
  | list | add => none

def WorkerCommand.target? : WorkerCommand → Option Target
  | .get id offset => some ⟨.worker, id, .ofOffset offset⟩
  | .delete id => some ⟨.worker, id, .whole⟩
  | .variables id | .setVariables id => some ⟨.worker, id, .environment⟩
  | .secrets id | .setSecrets id => some ⟨.worker, id, .secrets⟩
  | .list | .add => none

def DomainCommand.target? : DomainCommand → Option Target
  | get id | delete id => some ⟨.domain, id, .whole⟩
  | list | add => none

/-- What a command is about, if it names a resource. -/
def Command.target? : Command → Option Target
  | databases c => c.toOption.bind DatabaseCommand.target?
  | stores c => c.toOption.bind StoreCommand.target?
  | workers c => c.toOption.bind WorkerCommand.target?
  | domains c => c.toOption.bind DomainCommand.target?
  | nothing | help | clear | register | login | logout | resetPassword | whoami | status | leave
  | unknown _ => none

section
variable {args : List String} {t : Target}

theorem DatabaseCommand.target_word {c : DatabaseCommand} (h : ofWords args = .ok c)
    (ht : c.target? = some t) : t.id ∈ args := by
  unfold ofWords at h
  split at h <;> cases h <;> cases ht
  all_goals exact List.mem_cons_of_mem _ List.mem_cons_self

theorem StoreCommand.target_word {c : StoreCommand} (h : ofWords args = .ok c)
    (ht : c.target? = some t) : t.id ∈ args := by
  unfold ofWords at h
  split at h <;> cases h <;> cases ht
  all_goals exact List.mem_cons_of_mem _ List.mem_cons_self

theorem WorkerCommand.target_word {c : WorkerCommand} (h : ofWords args = .ok c)
    (ht : c.target? = some t) : t.id ∈ args := by
  unfold ofWords at h
  split at h <;> (try split at h) <;> cases h <;> cases ht
  all_goals exact List.mem_cons_of_mem _ List.mem_cons_self

theorem DomainCommand.target_word {c : DomainCommand} (h : ofWords args = .ok c)
    (ht : c.target? = some t) : t.id ∈ args := by
  unfold ofWords at h
  split at h <;> cases h <;> cases ht
  all_goals exact List.mem_cons_of_mem _ List.mem_cons_self

theorem OrUsage.target_word {read : List String → OrUsage γ} {target? : γ → Option Target}
    (hread : ∀ {c}, read args = .ok c → target? c = some t → t.id ∈ args)
    (h : (read args).toOption.bind target? = some t) : t.id ∈ args := by
  cases hc : read args with
  | error usage =>
    rw [hc] at h
    cases h
  | ok c =>
    rw [hc] at h
    exact hread hc h

end

/-- The resource of a command is named by a word of the line. -/
theorem Command.target_word {line : String} {t : Target}
    (h : (ofLine line).target? = some t) : t.id ∈ Text.words line := by
  unfold ofLine ofWords at h
  split at h
  · cases h
  · rename_i first args hwords
    rw [hwords]
    apply List.mem_cons_of_mem
    split at h
    case h_11 => exact OrUsage.target_word DatabaseCommand.target_word h
    case h_12 => exact OrUsage.target_word StoreCommand.target_word h
    case h_13 => exact OrUsage.target_word WorkerCommand.target_word h
    case h_14 => exact OrUsage.target_word DomainCommand.target_word h
    all_goals cases h

/-- All that has been sent since went to the address of a target. -/
structure Desk.SentTo (t : Target) (d d' : Desk σ) : Prop where
  client : d'.client = d.client
  sent : ∃ requests, d'.wire.received = d.wire.received ++ requests ∧
    ∀ r ∈ requests, Url.parse? (d.client.baseUrl ++ t.address) = some r.url

theorem Desk.SentTo.since {t : Target} {d d' : Desk σ} (h : d.SentTo t d') :
    ∀ r ∈ d'.wire.receivedSince d.wire,
      Url.parse? (d.client.baseUrl ++ t.address) = some r.url := by
  obtain ⟨-, requests, hsent, hurls⟩ := h
  simpa [Wire.receivedSince, hsent] using hurls

instance (t : Target) :
    Watched (fun _ => True) (fun _ call => call.target? = some t) (@Desk.SentTo σ t) where
  refl d := ⟨rfl, [], by simp⟩
  trans := by
    rintro d d' d'' ⟨hclient, requests, hsent, hurls⟩ ⟨hclient', later, hlater, hurls'⟩
    refine ⟨hclient'.trans hclient, requests ++ later, ?_, ?_⟩
    · rw [hlater, hsent, List.append_assoc]
    · rw [hclient] at hurls'
      intro r hr
      rcases List.mem_append.mp hr with hr | hr
      · exact hurls r hr
      · exact hurls' r hr
  recorded d events _ := ⟨rfl, [], by simp⟩
  read d _ _ _ _ _ _ := ⟨rfl, [], by simp⟩
  called d c h := by
    refine ⟨rfl, _, d.client.run_received d.now.shown d.vault.session c d.wire, ?_⟩
    rw [← Call.path_of_target h]
    exact fun r hr => (Client.run_fields r hr).2.1

open Console (Plain)

/-- Calls to the address of a target. -/
def Target.IsOf (t : Target) : (α : Type) → Call α → Prop := fun _ call => call.target? = some t

theorem Databases.run_to {c : DatabaseCommand} {t : Target} (h : c.target? = some t) :
    Plain (σ := σ) t.IsOf (run (.ok c)) := by
  cases c with
  | get id =>
    cases h
    exact .attempt _ (.call_and_tell rfl _)
  | delete id =>
    cases h
    exact .attempt _ (.bind (Attempt.Plain.call rfl) fun _ => .tell _)
  | list | add => cases h

theorem Stores.run_to {c : StoreCommand} {t : Target} (h : c.target? = some t) :
    Plain (σ := σ) t.IsOf (run (.ok c)) := by
  cases c with
  | delete id =>
    cases h
    exact .attempt _ (.bind (Attempt.Plain.call rfl) fun _ => .tell _)
  | list | add => cases h

theorem Domains.run_to {c : DomainCommand} {t : Target} (h : c.target? = some t) :
    Plain (σ := σ) t.IsOf (run (.ok c)) := by
  cases c with
  | get id =>
    cases h
    exact .attempt _ (.call_and_tell rfl _)
  | delete id =>
    cases h
    exact .attempt _ (.bind (Attempt.Plain.call rfl) fun _ => .tell _)
  | list | add => cases h

theorem Workers.run_to {c : WorkerCommand} {t : Target} (h : c.target? = some t) :
    Plain (σ := σ) t.IsOf (run (.ok c)) := by
  match c, h with
  | .get _ _, rfl | .variables _, rfl | .secrets _, rfl =>
    exact .attempt _ (.call_and_tell rfl _)
  | .delete _, rfl => exact .attempt _ (.bind (Attempt.Plain.call rfl) fun _ => .tell _)
  | .setVariables _, rfl | .setSecrets _, rfl => exact .attempt _ (set_plain (fun _ => rfl) ..)

/-- A command about a resource calls its target only. -/
theorem Console.execute_to [Host σ] {c : Command} {t : Target} (h : c.target? = some t) :
    Plain (σ := σ) t.IsOf (execute c) := by
  cases c with
  | databases c =>
    cases c with
    | error => cases h
    | ok c => exact .bind (.authenticated (Databases.run_to h)) fun _ => .pure _
  | stores c =>
    cases c with
    | error => cases h
    | ok c => exact .bind (.authenticated (Stores.run_to h)) fun _ => .pure _
  | workers c =>
    cases c with
    | error => cases h
    | ok c => exact .bind (.authenticated (Workers.run_to h)) fun _ => .pure _
  | domains c =>
    cases c with
    | error => cases h
    | ok c => exact .bind (.authenticated (Domains.run_to h)) fun _ => .pure _
  | _ => cases h

/-- A command about a resource sends to no other address. -/
theorem Console.execute_sentTo [Host σ] {c : Command} {t : Target} (h : c.target? = some t) :
    Keeps (@Desk.SentTo σ t) (execute c) := (execute_to h).keeps

end SignedConsole
