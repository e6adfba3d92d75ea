import SignedConsole.Console.Loop
import SignedConsole.Proofs.CommandSteps

namespace SignedConsole

/-- Sessions that differ in the text of their secrets at most. -/
structure Session.Alike (s t : Session) : Prop where
  userId : t.userId = s.userId
  token : t.token = s.token
  secret : t.secret.isSome = s.secret.isSome

theorem Session.Alike.user {s t : Session} (h : s.Alike t) : t.user = s.user := by
  rw [Session.user, Session.user, h.userId]

/-- Desks that are the same to a plain program, up to what it has done. -/
structure Desk.Resembles (d e : Desk σ) : Prop where
  client : e.client = d.client
  scheme : e.vault.scheme = d.vault.scheme
  session : d.vault.session.Alike e.vault.session
  typed : e.typed = d.typed

/-- The programs that are made of plain steps, with calls of a kind. -/
inductive Console.Plain (makes : (α : Type) → Call α → Prop) : {α : Type} → Console σ α → Prop where
  | pure (a : α) : Plain makes (pure a)
  | bind {act : Console σ α} {next : α → Console σ β} (h : Plain makes act)
      (hn : ∀ a, Plain makes (next a)) : Plain makes (act >>= next)
  | record {events : List Event} (h : ∀ e ∈ events, e.answer? = none) :
      Plain makes (record events)
  | readLine (prompt : String) (hidden : Bool) : Plain makes (readLine prompt hidden)
  | look (f : Desk σ → α) (h : ∀ d e, d.Resembles e → f e = f d) :
      Plain makes (do return f (← get))
  | call {c : Call α} (h : makes α c) : Plain makes (Attempt.call c).run

/-- An attempt that is made of plain steps, also where it fails. -/
def Attempt.Plain (makes : (α : Type) → Call α → Prop) (act : Attempt σ α) : Prop :=
  Console.Plain makes act.run

section
variable {makes : (α : Type) → Call α → Prop}

/-- What each step keeps is kept by a plain program. -/
theorem Console.Plain.keeps {R : Desk σ → Desk σ → Prop} [Watched (fun _ => True) makes R]
    {act : Console σ α} (h : Plain makes act) : Keeps R act := by
  induction h with
  | pure a => exact Watched.pure a
  | bind _ _ ih ihn => exact Watched.bind ih ihn
  | record h => exact Watched.record fun e he => ⟨trivial, h e he⟩
  | readLine prompt hidden => exact Watched.readLine fun _ => trivial
  | look f _ => exact ⟨fun d => Watched.refl d⟩
  | call h => exact Watched.call h

theorem Attempt.Plain.keeps {R : Desk σ → Desk σ → Prop} [Watched (fun _ => True) makes R]
    {act : Attempt σ α} (h : act.Plain makes) : act.Keeps R := Console.Plain.keeps h

namespace Console.Plain

theorem tell (lines : List Line) : Plain makes (tell (σ := σ) lines) := by
  refine .record fun e he => ?_
  obtain ⟨_, _, rfl⟩ := List.mem_map.mp he
  rfl

theorem cleared : Plain makes (Console.record (σ := σ) [.cleared]) :=
  .record fun _ he => (List.mem_singleton.mp he) ▸ rfl

theorem usage (text : String) : Plain makes (usage (σ := σ) text) := tell _

/-- What is seen of a session. -/
theorem seeing {f : Session → α} (h : ∀ s t, s.Alike t → f t = f s) :
    Plain makes (σ := σ) (do return f (← session)) :=
  .look (fun d => f d.vault.session) fun _ _ hd => h _ _ hd.session

theorem authenticated {act : Console σ Unit} (h : Plain makes act) :
    Plain makes (authenticated act) := by
  change Plain makes ((do return (← session).isAuthenticated) >>= fun known =>
    if known then act else Console.tell [.error "Please login first"])
  refine .bind (seeing fun s t hs => congrArg Option.isSome hs.token) fun known => ?_
  cases known with
  | true => exact h
  | false => exact tell _

end Console.Plain

namespace Attempt

theorem Plain.pure (a : α) : Plain (σ := σ) makes (pure a) := Console.Plain.pure (Except.ok a)

theorem Plain.throw (f : Failure) : Plain makes (throw f : Attempt σ α) :=
  Console.Plain.pure (Except.error f)

theorem Plain.bind {act : Attempt σ α} {next : α → Attempt σ β} (h : act.Plain makes)
    (hn : ∀ a, (next a).Plain makes) : (act >>= next).Plain makes := by
  unfold Attempt.Plain
  rw [ExceptT.run_bind]
  refine .bind h fun r => ?_
  cases r with
  | ok a => exact hn a
  | error f => exact .pure _

theorem Plain.surely {act : Console σ α} (h : Console.Plain makes act) :
    (surely act).Plain makes := by
  change Console.Plain makes (act >>= fun a => Pure.pure (Except.ok a))
  exact .bind h fun a => .pure _

theorem Plain.tell (lines : List Line) : Plain (σ := σ) makes (tell lines) :=
  .surely (.tell lines)

theorem Plain.ask (prompt : String) (hidden : Bool) : Plain (σ := σ) makes (ask prompt hidden) := by
  refine .bind (.surely (.readLine prompt hidden)) fun answer => ?_
  cases answer with
  | some line => exact .pure line
  | none => exact .throw _

theorem Plain.call {c : Call α} (h : makes α c) : Plain (σ := σ) makes (call c) :=
  Console.Plain.call h

theorem Plain.during (task : String) {act : Attempt σ α} (h : act.Plain makes) :
    (during task act).Plain makes := by
  unfold Attempt.Plain
  rw [during_run]
  exact .bind h fun r => .pure _

/-- One call, and what came of it. -/
theorem Plain.call_and_tell {c : Call α} (h : makes α c) (lines : α → List Line) :
    Plain (σ := σ) makes (Attempt.call c >>= fun a => Attempt.tell (lines a)) :=
  .bind (.call h) fun a => .tell (lines a)

end Attempt

theorem Console.Plain.attempt (task : String) {act : Attempt σ Unit} (h : act.Plain makes) :
    Plain makes (attempt task act) := by
  refine .bind (h.during task) fun r => ?_
  cases r with
  | ok _ => exact .pure _
  | error f => exact .tell _

namespace Workers

theorem readUpdatesFrom_plain (lines : List String) :
    Console.Plain (σ := σ) makes (readUpdatesFrom lines) := by
  induction lines with
  | nil => exact .bind (.readLine _ _) fun _ => .pure _
  | cons line rest ih =>
    refine .bind (.readLine _ _) fun answer => ?_
    cases answer with
    | none => exact .pure _
    | some line =>
      dsimp only
      split
      · exact .pure _
      split
      · exact .bind ih fun _ => .pure _
      · exact .bind (.tell _) fun _ => ih

theorem readUpdates_plain (heading : String) :
    Console.Plain (σ := σ) makes (readUpdates heading) := by
  refine .bind (.tell _) fun _ => ?_
  change Console.Plain makes ((do return (← get).typed) >>= readUpdatesFrom)
  exact .bind (.look Desk.typed fun _ _ h => h.typed) readUpdatesFrom_plain

theorem sendUpdates_plain {make : VariableUpdate → Call (List α)}
    (h : ∀ u, makes (List α) (make u)) (last : List α) (updates : List VariableUpdate) :
    (sendUpdates (σ := σ) make last updates).Plain makes := by
  induction updates generalizing last with
  | nil => exact .pure _
  | cons u us ih => exact .bind (.during _ (.call (h u))) fun reply => ih reply

/-- Updates are entered, and sent unless there are none. -/
theorem set_plain {make : VariableUpdate → Call (List α)} (h : ∀ u, makes (List α) (make u))
    (heading cancelled : String) (lines : List α → List Line) : Attempt.Plain (σ := σ) makes (do
      let updates ← Attempt.surely (readUpdates heading)
      if updates.isEmpty then Attempt.tell [.warning cancelled]
      else
        let stored ← sendUpdates make [] updates
        Attempt.tell (lines stored)) := by
  refine .bind (.surely (readUpdates_plain heading)) fun updates => ?_
  split
  · exact .tell _
  · exact .bind (sendUpdates_plain h [] updates) fun stored => .tell _

end Workers
end

/-- Calls of any kind. -/
abbrev anyCall : (α : Type) → Call α → Prop := fun _ _ => True

open Console (Plain)

theorem Databases.run_plain (c : OrUsage DatabaseCommand) : Plain (σ := σ) anyCall (run c) := by
  match c with
  | .ok .list => exact .attempt _ (.call_and_tell trivial _)
  | .ok (.get id) => exact .attempt _ (.call_and_tell trivial _)
  | .ok .add => exact .attempt _ (.bind (.ask _ _) fun name => .call_and_tell trivial _)
  | .ok (.delete id) => exact .attempt _ (.bind (.call trivial) fun _ => .tell _)
  | .error usage => exact .usage usage

theorem Stores.run_plain (c : OrUsage StoreCommand) : Plain (σ := σ) anyCall (run c) := by
  match c with
  | .ok .list => exact .attempt _ (.call_and_tell trivial _)
  | .ok .add =>
    exact .attempt _
      (.bind (.ask _ _) fun kind => .bind (.ask _ _) fun url => .call_and_tell trivial _)
  | .ok (.delete id) => exact .attempt _ (.bind (.call trivial) fun _ => .tell _)
  | .error usage => exact .usage usage

theorem Domains.run_plain (c : OrUsage DomainCommand) : Plain (σ := σ) anyCall (run c) := by
  match c with
  | .ok .list => exact .attempt _ (.call_and_tell trivial _)
  | .ok (.get id) => exact .attempt _ (.call_and_tell trivial _)
  | .ok .add =>
    exact .attempt _
      (.bind (.ask _ _) fun name => .bind (.ask _ _) fun target => .call_and_tell trivial _)
  | .ok (.delete id) => exact .attempt _ (.bind (.call trivial) fun _ => .tell _)
  | .error usage => exact .usage usage

theorem Workers.run_plain (c : OrUsage WorkerCommand) : Plain (σ := σ) anyCall (run c) := by
  match c with
  | .ok .list => exact .attempt _ (.call_and_tell trivial _)
  | .ok .add => exact .attempt _ (.bind (.ask _ _) fun name => .call_and_tell trivial _)
  | .ok (.get id offset) => exact .attempt _ (.call_and_tell trivial _)
  | .ok (.delete id) => exact .attempt _ (.bind (.call trivial) fun _ => .tell _)
  | .ok (.variables id) => exact .attempt _ (.call_and_tell trivial _)
  | .ok (.setVariables id) => exact .attempt _ (set_plain (fun _ => trivial) ..)
  | .ok (.secrets id) => exact .attempt _ (.call_and_tell trivial _)
  | .ok (.setSecrets id) => exact .attempt _ (set_plain (fun _ => trivial) ..)
  | .error usage => exact .usage usage

namespace Account

theorem requestCode_plain : requestCode.Plain (σ := σ) anyCall :=
  .bind (.ask _ _) fun _ => .bind (.tell _) fun _ => .bind (.call trivial) fun _ =>
    .bind (.tell _) fun _ => .pure _

theorem requestRegistration_plain : requestRegistration.Plain (σ := σ) anyCall :=
  .bind requestCode_plain fun _ => .bind (.ask _ _) fun _ => .bind (.ask _ _) fun _ =>
    .call trivial

theorem requestGrant_plain : requestGrant.Plain (σ := σ) anyCall :=
  .bind (.ask _ _) fun _ => .bind (.ask _ _) fun _ => .call trivial

theorem resetPassword_plain : Plain (σ := σ) anyCall resetPassword :=
  .attempt _ (.bind requestCode_plain fun _ => .bind (.ask _ _) fun _ => .bind (.ask _ _) fun _ =>
    .call_and_tell trivial _)

theorem whoami_plain : Plain (σ := σ) anyCall whoami := by
  change Plain anyCall ((do return (← Console.session).user) >>= fun user => Console.tell [.info user])
  exact .bind (.seeing fun s t h => h.user) fun user => .tell _

end Account

/-- Whether a command may reach the vault. -/
def Command.reachesVault : Command → Bool
  | .register | .login | .logout => true
  | .nothing | .help | .clear | .resetPassword | .whoami | .status | .leave | .databases _
  | .stores _ | .workers _ | .domains _ | .unknown _ => false

/-- A command that does not reach the vault is plain, but for the one that asks for health. -/
theorem Console.execute_plain [Host σ] {c : Command} (h : c.reachesVault = false)
    (hs : c ≠ .status) : Plain (σ := σ) anyCall (execute c) := by
  cases c with
  | register | login | logout => cases h
  | status => exact absurd rfl hs
  | nothing => exact .pure _
  | leave => exact .pure _
  | help => exact .bind (.tell _) fun _ => .pure _
  | clear => exact .bind .cleared fun _ => .pure _
  | resetPassword => exact .bind Account.resetPassword_plain fun _ => .pure _
  | whoami => exact .bind Account.whoami_plain fun _ => .pure _
  | databases c => exact .bind (.authenticated (Databases.run_plain c)) fun _ => .pure _
  | stores c => exact .bind (.authenticated (Stores.run_plain c)) fun _ => .pure _
  | workers c => exact .bind (.authenticated (Workers.run_plain c)) fun _ => .pure _
  | domains c => exact .bind (.authenticated (Domains.run_plain c)) fun _ => .pure _
  | unknown name => exact .bind (.tell _) fun _ => .pure _

end SignedConsole
