import SignedConsole.Proofs.RetypedLines
import SignedConsole.Proofs.BatchUpdates

namespace SignedConsole

variable {like : String → String → Prop} {base : List Request}

/-- Vaults that are the same, or have been the same until a user was saved with a secret each. -/
def Vault.SavedApart [Storage σ] (v w : Vault σ) : Prop :=
  v = w ∨ ∃ (u : Vault σ) (userId token : String) (s t : Secret),
    v = u.save userId token s ∧ w = u.save userId token t

namespace Attempt

theorem ask_shown (prompt : String) :
    (ask (σ := σ) prompt false).Blind Eq base Eq (ask prompt false) :=
  (ask_leads (fun _ => rfl) prompt false).mono fun _ _ h => h.resolve_left nofun

theorem ask_hidden (prompt : String) :
    (ask (σ := σ) prompt true).Blind Eq base (fun _ _ => True) (ask prompt true) :=
  (ask_leads (fun _ => rfl) prompt true).mono fun _ _ _ => trivial

end Attempt

namespace Account

open Attempt (ask_shown ask_hidden call_blind tell_leads)

theorem requestCode_blind : (requestCode (σ := σ)).Blind Eq base Eq requestCode :=
  .then (ask_shown _) fun _ => .then (tell_leads _) fun _ => .then (call_blind (.refl _)) fun _ =>
    .then (tell_leads _) fun _ => .pure rfl

theorem requestRegistration_blind :
    (requestRegistration (σ := σ)).Blind Eq base Eq requestRegistration :=
  .then requestCode_blind fun _ => .then (ask_shown _) fun _ =>
    .bind (ask_hidden _) (fun _ => trivial) fun _ _ _ => call_blind ⟨rfl, rfl, rfl, rfl, rfl⟩

theorem requestGrant_blind : (requestGrant (σ := σ)).Blind Eq base Eq requestGrant :=
  .then (ask_shown _) fun _ =>
    .bind (ask_hidden _) (fun _ => trivial) fun _ _ _ => call_blind ⟨rfl, rfl, rfl, rfl, rfl⟩

theorem resetPassword_blind :
    Console.Blind (σ := σ) Eq base Eq resetPassword resetPassword :=
  Console.attempt_blind _ (.then requestCode_blind fun _ => .then (ask_shown _) fun _ =>
    .bind (ask_hidden _) (fun _ => trivial) fun _ _ _ =>
      .then (call_blind ⟨rfl, rfl, rfl, rfl, rfl⟩) fun _ => tell_leads _)

/-- How a shared secret is asked for. -/
def askKey : Attempt σ Secret := do
  return ⟨← Attempt.ask "Enter your secret key (sk_...):" true⟩

theorem askKey_blind : (askKey (σ := σ)).Blind Eq base (fun _ _ => True) askKey :=
  .bind (ask_hidden _) (fun _ => trivial) fun _ _ _ => .pure trivial

variable {σ : Type} [Host σ]

theorem save_blind (userId token : String) (s : Secret) :
    (save (σ := σ) userId token s).Blind like base Eq (save userId token s) :=
  Attempt.surely_leads (Console.changeVault_leads (fun _ => rfl)
    fun _ _ h => ⟨rfl, congrArg (Vault.save userId token s) h⟩)

/-- From here on the vaults may differ. -/
theorem save_leads (userId token : String) (s t : Secret) :
    (save (σ := σ) userId token s).Leads like base Eq Vault.SavedApart Eq (save userId token t) :=
  Attempt.surely_leads (Console.changeVault_leads (fun _ => rfl)
    fun v _ h => ⟨rfl, Or.inr ⟨v, userId, token, s, t, rfl, h ▸ rfl⟩⟩)

theorem register_blind : Console.Blind (σ := σ) Eq base Eq register register :=
  Console.attempt_blind _ (.then requestRegistration_blind fun _ =>
    .then (save_blind _ _ _) fun _ => tell_leads _)

/-- Nothing has been saved yet, so both find the same. -/
theorem seekSecret_blind (userId : String) :
    Console.Blind (σ := σ) like base Eq (seekSecret userId) (seekSecret userId) := by
  refine .bind (Q := Eq) (W := Eq) (Console.changeVault_leads (fun _ => rfl) fun v w h => ?_)
    (fun _ => rfl) fun found _ h => ?_
  · rw [h]
    exact ⟨rfl, rfl⟩
  · rw [← h]
    exact .bind (Console.tell_leads _) (fun _ => rfl) fun _ _ _ => .pure rfl

theorem perform_askSecret {d : Desk σ} (h : d.vault.scheme = .hmac) :
    d.perform askSecret.run = d.perform askKey.run := by
  obtain ⟨client, ⟨storage, scheme, session⟩, wire, now, typed, events⟩ := d
  obtain rfl : scheme = .hmac := h
  rfl

/-- Under a shared secret no key file is read. -/
theorem askSecret_blind :
    (askSecret (σ := σ)).Blind Eq base (fun _ _ => True) askSecret := by
  intro d hd
  have hkey : (askKey (σ := σ)).Blind Eq base (fun _ _ => True) askKey := askKey_blind
  obtain ⟨hkeyed, told, hevents, hact⟩ := hkey d hd
  rw [perform_askSecret hd.scheme]
  refine ⟨hkeyed, told, hevents, fun e hidden he => ?_⟩
  rw [perform_askSecret (he.vault ▸ hd.scheme)]
  exact hact e hidden he

theorem findSecret_blind (userId : String) :
    (findSecret (σ := σ) userId).Blind Eq base (fun _ _ => True) (findSecret userId) := by
  refine .then (Attempt.surely_leads (seekSecret_blind userId)) fun found => ?_
  cases found with
  | some s => exact .pure trivial
  | none => exact askSecret_blind

theorem login_leads :
    Console.Leads (σ := σ) Eq base Eq Vault.SavedApart Eq login login := by
  have hsame (v w : Vault σ) (h : v = w) : v.SavedApart w := Or.inl h
  refine Console.attempt_leads _ (.bind requestGrant_blind (fun _ => rfl) hsame fun r _ hr => ?_)
  rw [← hr]
  exact .bind (findSecret_blind r.userId) (fun _ => trivial) hsame fun s t _ =>
    .bind (save_leads _ _ s t) (fun _ => rfl) (fun _ _ hv => hv) fun _ _ _ => tell_leads _

end Account

namespace Workers

/-- Entries that are the same, or that set the same variable. -/
def SameEntry (a b : String) : Prop :=
  a = b ∨ ∃ key v w, update? a = some (.set key v) ∧ update? b = some (.set key w)

theorem SameEntry.isEmpty {a b : String} (h : SameEntry a b) : b.isEmpty = a.isEmpty := by
  obtain rfl | ⟨key, v, w, ha, hb⟩ := h
  · rfl
  · have hfull {entry value : String} (h : update? entry = some (.set key value)) :
        entry.isEmpty = false := by
      by_contra hempty
      rw [Bool.not_eq_false, String.isEmpty_iff] at hempty
      rw [hempty] at h
      cases h
    rw [hfull ha, hfull hb]

theorem SameEntry.update {a b : String} (h : SameEntry a b) :
    Option.Rel (fun u v : VariableUpdate => v.key = u.key) (update? a) (update? b) := by
  obtain rfl | ⟨key, v, w, ha, hb⟩ := h
  · cases update? a with
    | none => exact .none
    | some u => exact .some rfl
  · rw [ha, hb]
    exact .some rfl

/-- Updates of the same variables, in one order. -/
def SameKeys (us vs : List VariableUpdate) : Prop :=
  vs.map VariableUpdate.key = us.map VariableUpdate.key

open Console (tell_leads)

theorem read_entry_blind : Console.Blind (σ := σ) SameEntry base (Option.Rel SameEntry)
    (Console.readLine "" false) (Console.readLine "" false) := by
  refine (Console.readLine_leads "" false).mono fun a b h => ?_
  cases h with
  | none => exact .none
  | some h => exact .some (h.resolve_left nofun)

/-- That many lines are read as updates of the same variables. -/
theorem readUpdatesFrom_blind (xs ys : List String) (h : ys.length = xs.length) :
    Console.Blind (σ := σ) SameEntry base SameKeys (readUpdatesFrom xs) (readUpdatesFrom ys) := by
  have hsame (answer : Option String) : Option.Rel SameEntry answer answer := by
    cases answer with
    | none => exact .none
    | some a => exact .some (Or.inl rfl)
  induction xs generalizing ys with
  | nil =>
    rw [List.eq_nil_of_length_eq_zero h]
    exact .bind read_entry_blind hsame fun _ _ _ => .pure rfl
  | cons x xs ih =>
    cases ys with
    | nil => cases h
    | cons y ys =>
      refine .bind read_entry_blind hsame fun answer other ha => ?_
      cases ha with
      | none => exact .pure rfl
      | @some a b ha =>
        dsimp only
        rw [ha.isEmpty]
        split
        · exact .pure rfl
        · have hupdate := ha.update
          generalize update? a = u at hupdate ⊢
          generalize update? b = v at hupdate ⊢
          cases hupdate with
          | none =>
            exact .bind (tell_leads _) (fun _ => rfl) fun _ _ _ => ih ys (Nat.succ.inj h)
          | some hkey =>
            refine .bind (ih ys (Nat.succ.inj h)) (fun _ => rfl) fun us vs hkeys => .pure ?_
            exact congrArg₂ List.cons hkey hkeys

theorem readUpdates_blind (heading : String) : Console.Blind (σ := σ) SameEntry base SameKeys
    (readUpdates heading) (readUpdates heading) := by
  refine .bind (tell_leads _) (fun _ => rfl) fun _ _ _ => ?_
  change Console.Leads SameEntry base Eq Eq SameKeys
    ((do return (← get).typed) >>= readUpdatesFrom) ((do return (← get).typed) >>= readUpdatesFrom)
  exact .bind (Q := fun xs ys => ys.length = xs.length)
    (Console.look_leads Desk.typed fun _ _ _ he => he.typed.length) (fun _ => rfl)
    readUpdatesFrom_blind

open Attempt (call_blind during_leads surely_leads)

/-- What is told of an update that fails is its key. -/
theorem sendUpdates_blind (b : Batch) (id : String) (us vs : List VariableUpdate)
    (h : SameKeys us vs) (last : List b.Entry) :
    (sendUpdates (σ := σ) (b.make id) last us).Blind like base Eq
      (sendUpdates (b.make id) last vs) := by
  induction us generalizing vs last with
  | nil =>
    rw [List.map_eq_nil_iff.mp h]
    exact .pure rfl
  | cons u us ih =>
    cases vs with
    | nil => cases h
    | cons v vs =>
      obtain ⟨hkey, hkeys⟩ := List.cons.inj h
      have hsimilar : (b.make id u).Similar (b.make id v) := by
        cases b <;> exact ⟨rfl, rfl, rfl, rfl, rfl⟩
      rw [sendUpdates, sendUpdates, hkey]
      exact .then (during_leads _ (call_blind hsimilar) fun _ => rfl) fun reply => ih vs hkeys reply

theorem batch_blind (b : Batch) (id : String) : Console.Blind (σ := σ) SameEntry base Eq
    (run (.ok (b.command id))) (run (.ok (b.command id))) := by
  rw [b.run_command id]
  refine Console.attempt_blind _ (.bind (surely_leads (readUpdates_blind _)) (fun _ => rfl)
    fun us vs h => ?_)
  have hnone : vs.isEmpty = us.isEmpty := by
    have hlength := congrArg List.length h
    cases us <;> cases vs <;> simp at hlength ⊢
  rw [hnone]
  split
  · exact Attempt.tell_leads _
  · exact .then (sendUpdates_blind b id us vs h []) fun _ => Attempt.tell_leads _

end Workers

/-- An event that is no hidden line. -/
def Event.IsOpen (e : Event) : Prop := e.hides? ≠ some true

theorem Event.asked_open (prompt : String) (answer : Option String) :
    (Event.asked prompt false answer).IsOpen := by
  cases answer <;> nofun

section

open Console (Keeps)

theorem Console.attempt_open (task : String) {act : Attempt σ Unit}
    (h : act.Keeps (Desk.Told Event.IsOpen)) :
    Keeps (Desk.Told Event.IsOpen) (Console.attempt task act) :=
  Watched.attempt task h fun _ => nofun

theorem Console.tell_open (lines : List Line) :
    Keeps (σ := σ) (Desk.Told Event.IsOpen) (Console.tell lines) := Watched.tell fun _ _ => nofun

namespace Attempt

theorem ask_open (prompt : String) : (ask (σ := σ) prompt false).Keeps (Desk.Told Event.IsOpen) :=
  Watched.ask (Event.asked_open prompt)

theorem call_and_tell_open (c : Call α) (lines : α → List Line) :
    Attempt.Keeps (σ := σ) (Desk.Told Event.IsOpen) (call c >>= fun a => tell (lines a)) :=
  Watched.andThen (Watched.call trivial) fun _ => Watched.say fun _ _ => nofun

end Attempt

open Console (attempt_open tell_open)
open Attempt (ask_open call_and_tell_open)

theorem Databases.run_open (c : OrUsage DatabaseCommand) :
    Keeps (σ := σ) (Desk.Told Event.IsOpen) (run c) := by
  match c with
  | .ok .list | .ok (.get id) | .ok (.delete id) => exact attempt_open _ (call_and_tell_open _ _)
  | .ok .add =>
    exact attempt_open _ (Watched.andThen (ask_open _) fun _ => call_and_tell_open _ _)
  | .error usage => exact tell_open _

theorem Stores.run_open (c : OrUsage StoreCommand) :
    Keeps (σ := σ) (Desk.Told Event.IsOpen) (run c) := by
  match c with
  | .ok .list | .ok (.delete id) => exact attempt_open _ (call_and_tell_open _ _)
  | .ok .add =>
    exact attempt_open _ (Watched.andThen (ask_open _) fun _ =>
      Watched.andThen (ask_open _) fun _ => call_and_tell_open _ _)
  | .error usage => exact tell_open _

theorem Domains.run_open (c : OrUsage DomainCommand) :
    Keeps (σ := σ) (Desk.Told Event.IsOpen) (run c) := by
  match c with
  | .ok .list | .ok (.get id) | .ok (.delete id) => exact attempt_open _ (call_and_tell_open _ _)
  | .ok .add =>
    exact attempt_open _ (Watched.andThen (ask_open _) fun _ =>
      Watched.andThen (ask_open _) fun _ => call_and_tell_open _ _)
  | .error usage => exact tell_open _

theorem Workers.run_open (c : OrUsage WorkerCommand)
    (h : ∀ (b : Batch) (id : String), c ≠ .ok (b.command id)) :
    Keeps (σ := σ) (Desk.Told Event.IsOpen) (run c) := by
  match c with
  | .ok .list | .ok (.get id offset) | .ok (.delete id) | .ok (.variables id) | .ok (.secrets id) =>
    exact attempt_open _ (call_and_tell_open _ _)
  | .ok .add =>
    exact attempt_open _ (Watched.andThen (ask_open _) fun _ => call_and_tell_open _ _)
  | .ok (.setVariables id) => exact absurd rfl (h .environment id)
  | .ok (.setSecrets id) => exact absurd rfl (h .secrets id)
  | .error usage => exact tell_open _

theorem Console.authenticated_open {act : Console σ Unit}
    (h : Keeps (Desk.Told Event.IsOpen) act) :
    Keeps (Desk.Told Event.IsOpen) (authenticated act) := by
  refine Watched.bind Watched.session fun session => ?_
  split
  · exact h
  · exact tell_open _

theorem Account.status_open : Keeps (σ := σ) (Desk.Told Event.IsOpen) status :=
  Watched.bind Watched.session fun _ =>
    Watched.bind ⟨fun d => ⟨[], (List.append_nil d.events).symm, nofun⟩⟩ fun _ =>
      Watched.bind Watched.get fun _ => tell_open _

end

/-- The commands that have a hidden prompt. -/
def Command.HidesLines (c : Command) : Prop := c = .register ∨ c = .login ∨ c = .resetPassword

/-- The commands that values of variables are entered for. -/
def Command.EntersValues (c : Command) : Prop :=
  ∃ (b : Batch) (id : String), c = .workers (.ok (b.command id))

/-- Lines that set the same variable, where values are entered. -/
def Command.Revalues (c : Command) (x y : String) : Prop :=
  c.EntersValues ∧ ∃ key v w, Workers.update? (Text.trim x) = some (.set key v) ∧
    Workers.update? (Text.trim y) = some (.set key w)

/-- The lines that may be typed for others in a command that tells this much: those that hidden
prompts take, and those that enter another value. -/
structure Command.Replaces (c : Command) (told : List Event) (xs ys : List String) : Prop where
  length : ys.length = xs.length
  line : ∀ (i : Nat) x y, xs[i]? = some x → ys[i]? = some y →
    x = y ∨ (hiddenLines told)[i]? = some true ∨ c.Revalues x y

section
variable {c : Command} {told : List Event} {xs ys : List String}

theorem Command.Replaces.of_hiding (h : c.Replaces told xs ys) (hv : ¬c.EntersValues) :
    Retyped Eq (hiddenLines told) xs ys := by
  refine ⟨h.length, fun i x y hx hy => ?_⟩
  rcases h.line i x y hx hy with rfl | hflag | ⟨hvalues, -⟩
  · exact Or.inr rfl
  · exact Or.inl hflag
  · exact absurd hvalues hv

theorem Command.Replaces.of_entering (h : c.Replaces told xs ys) :
    Retyped Workers.SameEntry (hiddenLines told) xs ys := by
  refine ⟨h.length, fun i x y hx hy => ?_⟩
  rcases h.line i x y hx hy with rfl | hflag | ⟨-, hset⟩
  · exact Or.inr (Or.inl rfl)
  · exact Or.inl hflag
  · exact Or.inr (Or.inr hset)

/-- Where nothing is hidden and no values are entered, no line may be another. -/
theorem Command.Replaces.eq (h : c.Replaces told xs ys) (hopen : ∀ e ∈ told, e.IsOpen)
    (hv : ¬c.EntersValues) : ys = xs := by
  refine List.ext_getElem? fun i => ?_
  cases hx : xs[i]? with
  | none =>
    rw [List.getElem?_eq_none_iff] at hx ⊢
    rw [h.length]
    exact hx
  | some x =>
    have hi : i < ys.length := h.length ▸ (List.getElem?_eq_some_iff.mp hx).1
    have hy := List.getElem?_eq_getElem hi
    rw [hy]
    rcases h.line i x _ hx hy with heq | hflag | ⟨hvalues, -⟩
    · rw [heq]
    · obtain ⟨e, he, hhides⟩ := List.mem_filterMap.mp (List.mem_of_getElem? hflag)
      exact absurd hhides (hopen e he)
    · exact absurd hvalues hv

end

/-- Requests have come in behind those that had. -/
def Desk.SentOn (d d' : Desk σ) : Prop := d.wire.received <+: d'.wire.received

instance [Storage σ] : Enduring (@Desk.SentOn σ) where
  refl d := List.prefix_refl d.wire.received
  trans h h' := List.IsPrefix.trans h h'
  recorded d _ _ := List.prefix_refl d.wire.received
  read d _ _ _ _ _ := List.prefix_refl d.wire.received
  called _ _ := ⟨_, (Client.run_received ..).symm⟩
  probed _ := ⟨_, (Client.health_received ..).symm⟩
  sought d _ := List.prefix_refl d.wire.received
  saved d _ _ _ := List.prefix_refl d.wire.received
  forgotten d := List.prefix_refl d.wire.received

section
variable {σ : Type} [Host σ] {c : Command}

theorem Console.execute_open (h : ¬c.HidesLines) (hv : ¬c.EntersValues) :
    Keeps (σ := σ) (Desk.Told Event.IsOpen) (execute c) := by
  cases c with
  | register => exact absurd (Or.inl rfl) h
  | login => exact absurd (Or.inr (Or.inl rfl)) h
  | resetPassword => exact absurd (Or.inr (Or.inr rfl)) h
  | nothing => exact Watched.pure _
  | leave => exact Watched.pure _
  | help => exact Watched.bind (tell_open _) fun _ => Watched.pure _
  | clear =>
    refine Watched.bind (Watched.record fun e he => ?_) fun _ => Watched.pure _
    rw [List.mem_singleton.mp he]
    exact ⟨nofun, rfl⟩
  | logout =>
    exact Watched.bind (Watched.bind ⟨fun d => ⟨[], (List.append_nil d.events).symm, nofun⟩⟩
      fun _ => tell_open _) fun _ => Watched.pure _
  | whoami =>
    exact Watched.bind (Watched.bind Watched.session fun _ => tell_open _) fun _ => Watched.pure _
  | status => exact Watched.bind Account.status_open fun _ => Watched.pure _
  | databases c =>
    exact Watched.bind (authenticated_open (Databases.run_open c)) fun _ => Watched.pure _
  | stores c =>
    exact Watched.bind (authenticated_open (Stores.run_open c)) fun _ => Watched.pure _
  | workers c =>
    have hc (b : Batch) (id : String) : c ≠ .ok (b.command id) := by
      rintro rfl
      exact hv ⟨b, id, rfl⟩
    exact Watched.bind (authenticated_open (Workers.run_open c hc)) fun _ => Watched.pure _
  | domains c =>
    exact Watched.bind (authenticated_open (Domains.run_open c)) fun _ => Watched.pure _
  | unknown name => exact Watched.bind (tell_open _) fun _ => Watched.pure _

namespace Console

theorem hiding_leads (h : c.HidesLines) :
    Leads (σ := σ) Eq base Eq Vault.SavedApart Eq (execute c) (execute c) := by
  have hsame (v w : Vault σ) (h : v = w) : v.SavedApart w := Or.inl h
  rcases h with rfl | rfl | rfl
  · exact .bind Account.register_blind (fun _ => rfl) fun _ _ _ => .rest hsame rfl
  · exact .bind Account.login_leads (fun _ => rfl) fun _ _ _ => .pure rfl
  · exact .bind Account.resetPassword_blind (fun _ => rfl) fun _ _ _ => .rest hsame rfl

theorem entering_leads (h : c.EntersValues) :
    Leads (σ := σ) Workers.SameEntry base Eq Vault.SavedApart Eq (execute c) (execute c) := by
  obtain ⟨b, id, rfl⟩ := h
  exact .bind (authenticated_blind (Workers.batch_blind b id)) (fun _ => rfl)
    fun _ _ _ => .rest (fun _ _ hv => Or.inl hv) rfl

variable {ys : List String}

/-- A run beside itself. -/
theorem abreast_self {d : Desk σ} :
    (d.perform (execute c)).2.Abreast Eq d.wire.received Vault.SavedApart []
      (d.perform (execute c)).2 := by
  obtain ⟨sent, hsent⟩ := (execute_endures (R := Desk.SentOn) c).step d
  refine ⟨rfl, Or.inl rfl, ?_, rfl, ⟨rfl, fun i x y hx hy => ?_⟩, rfl⟩
  · exact ⟨rfl, rfl, rfl, sent, sent, hsent.symm, hsent.symm,
      List.forall₂_same.mpr fun r _ => .refl r⟩
  · cases hx.symm.trans hy
    exact Or.inr rfl

/-- The two runs of a command end abreast. -/
theorem execute_abreast (c : Command) {d : Desk σ} (hd : d.Keyed)
    (h : c.Replaces ((d.perform (execute c)).2.events.drop d.events.length) d.typed ys) :
    (Desk.perform { d with typed := ys } (execute c)).1 = (d.perform (execute c)).1 ∧
      ∃ like, (d.perform (execute c)).2.Abreast like d.wire.received Vault.SavedApart []
        (Desk.perform { d with typed := ys } (execute c)).2 := by
  by_cases hv : c.EntersValues
  · obtain ⟨hnext, hdesk⟩ := (entering_leads hv).retyped hd h.of_entering
    exact ⟨hnext, _, hdesk⟩
  by_cases hh : c.HidesLines
  · obtain ⟨hnext, hdesk⟩ := (hiding_leads hh).retyped hd (h.of_hiding hv)
    exact ⟨hnext, _, hdesk⟩
  · obtain ⟨told, hevents, hopen⟩ := (execute_open (σ := σ) hh hv).step d
    rw [hevents, List.drop_left] at h
    obtain rfl := h.eq hopen hv
    exact ⟨rfl, Eq, abreast_self⟩

/-- Typed secrets are not echoed. Let a command be run twice under a shared secret, with as many
lines typed, where a line is typed for another only if a hidden prompt takes it, or if both set the
same variable in a batch. The two runs tell the same lines and show the same prompts, take equally
many lines and answers, read the clock as often and end alike, and their requests pair up, which
differ in body and signature only. The credentials that they leave are the same, or are one user's
with a secret each. -/
theorem typed_secrets_stay_hidden (line : String) (d : Desk σ) (ys : List String)
    (hsigner : d.client.signer = .hmac) (hscheme : d.vault.scheme = .hmac)
    (hlength : ys.length = d.typed.length) :
    let first := d.perform (dispatch line)
    let second := Desk.perform { d with typed := ys } (dispatch line)
    let told := first.2.events.drop d.events.length
    (∀ (i : Nat) x y, d.typed[i]? = some x → ys[i]? = some y → x = y ∨
      (hiddenLines told)[i]? = some true ∨ (Command.ofLine line).Revalues x y) →
    second.1 = first.1 ∧ second.2.events.map Event.seen = first.2.events.map Event.seen ∧
    (∃ n, first.2.typed = d.typed.drop n ∧ second.2.typed = ys.drop n) ∧
    second.2.wire.answers = first.2.wire.answers ∧ second.2.now = first.2.now ∧
    (∃ sent others, first.2.wire.received = d.wire.received ++ sent ∧
      second.2.wire.received = d.wire.received ++ others ∧
      List.Forall₂ Request.Similar sent others) ∧
    first.2.vault.SavedApart second.2.vault := by
  intro first second told hline
  obtain ⟨hnext, like, hdesk⟩ :=
    execute_abreast (.ofLine line) ⟨hsigner, hscheme⟩ ⟨hlength, hline⟩
  have hfirst : first.2.typed = d.typed.drop (d.typed.length - first.2.typed.length) :=
    List.suffix_iff_eq_drop.mp ((execute_typedOn (.ofLine line)).step d)
  have hsecond : second.2.typed = ys.drop (ys.length - second.2.typed.length) :=
    List.suffix_iff_eq_drop.mp ((execute_typedOn (.ofLine line)).step { d with typed := ys })
  have hleft : second.2.typed.length = first.2.typed.length := hdesk.typed.length
  rw [hlength, hleft] at hsecond
  exact ⟨hnext, hdesk.events, ⟨_, hfirst, hsecond⟩, hdesk.wire.answers, hdesk.now,
    hdesk.wire.received, hdesk.vault⟩

/-- Either of two passwords and secret keys is typed. What is sent and kept tells the logins apart,
and nothing that is seen does. -/
theorem login_with_either_key :
    let d : Desk (Beside Memory) := ⟨.of "http://api.test" .hmac .failOpen,
      .closed ⟨.empty, .empty []⟩ .hmac,
      ⟨true, [.reply 200 (Text.utf8 "\x7b\"user_id\":\"alice\",\"token\":\"jwt\"\x7d")],
        .hangUp, []⟩, 1,
      ["alice@example.com", "pw one", "sk_one", "status"], []⟩
    let ys := ["alice@example.com", "pw two", "sk_two", "status"]
    ∃ last other, d.perform (dispatch "login") = (.goOn, last) ∧
      Desk.perform { d with typed := ys } (dispatch "login") = (.goOn, other) ∧
      other.events.map Event.seen = last.events.map Event.seen ∧
      last.typed = ["status"] ∧ other.typed = ["status"] ∧
      List.Forall₂ Request.Similar last.wire.received other.wire.received ∧
      last.wire.received.map Request.body ≠ other.wire.received.map Request.body ∧
      last.vault.session.secret.map Secret.text = some "sk_one" ∧
      other.vault.session.secret.map Secret.text = some "sk_two" := by
  intro d ys
  have hruns := typed_secrets_stay_hidden "login" d ys rfl rfl rfl
  have htold : hiddenLines ((d.perform (dispatch "login")).2.events.drop d.events.length) =
      [false, true, true] := by decide +kernel
  have hline (i : Nat) (x y : String) (hx : d.typed[i]? = some x) (hy : ys[i]? = some y) :
      x = y ∨ [false, true, true][i]? = some true ∨ (Command.ofLine "login").Revalues x y := by
    match i with
    | 0 => exact Or.inl (Option.some.inj (hx.symm.trans hy))
    | 1 => exact Or.inr (Or.inl rfl)
    | 2 => exact Or.inr (Or.inl rfl)
    | 3 => exact Or.inl (Option.some.inj (hx.symm.trans hy))
    | i + 4 => cases hx
  have hfacts : (d.perform (dispatch "login")).1 = .goOn ∧
      (d.perform (dispatch "login")).2.typed = ["status"] ∧
      (Desk.perform { d with typed := ys } (dispatch "login")).2.typed = ["status"] ∧
      (d.perform (dispatch "login")).2.wire.received.map Request.body ≠
        (Desk.perform { d with typed := ys } (dispatch "login")).2.wire.received.map Request.body ∧
      (d.perform (dispatch "login")).2.vault.session.secret.map Secret.text = some "sk_one" ∧
      (Desk.perform { d with typed := ys } (dispatch "login")).2.vault.session.secret.map
        Secret.text = some "sk_two" := by decide +kernel
  dsimp only at hruns
  rw [htold] at hruns
  have hruns := hruns hline
  generalize d.perform (dispatch "login") = x at hruns hfacts ⊢
  generalize Desk.perform { d with typed := ys } (dispatch "login") = y at hruns hfacts ⊢
  obtain ⟨next, last⟩ := x
  obtain ⟨next', other⟩ := y
  obtain ⟨hnext, hlast, hother, hsent, hkept, hkept'⟩ := hfacts
  obtain ⟨hsame, hevents, -, -, -, ⟨sent, others, hreceived, hreceived', hsimilar⟩, -⟩ := hruns
  subst hnext
  subst hsame
  refine ⟨last, other, rfl, rfl, hevents, hlast, hother, ?_, hsent, hkept, hkept'⟩
  rw [hreceived, hreceived']
  exact hsimilar

end Console
end
end SignedConsole
