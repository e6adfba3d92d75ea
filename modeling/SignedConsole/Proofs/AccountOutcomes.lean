import SignedConsole.Proofs.Deeds
import SignedConsole.Storage.Memory

namespace SignedConsole

/-- Storage that is the same after a look. -/
class Storage.Still (σ : Type) [Storage σ] : Prop where
  get_same : ∀ (key : String) (s : σ), (Storage.get key s).2 = s

instance : Storage.Still Memory := ⟨fun _ _ => rfl⟩

instance : Storage.Still FileStorage := ⟨fun _ _ => rfl⟩

instance [Storage σ] [Storage.Still σ] : Storage.Still (Refusing σ) where
  get_same key s := by
    obtain ⟨inner, get, set, remove⟩ := s
    cases get with
    | true => rfl
    | false =>
      have hinner := Storage.Still.get_same key inner
      change (⟨(Storage.get key inner).2, false, set, remove⟩ : Refusing σ) = _
      rw [hinner]

instance [Storage σ] [Storage.Still σ] : Storage.Still (Beside σ) where
  get_same key b := by
    obtain ⟨storage, disk⟩ := b
    have hstorage := Storage.Still.get_same key storage
    change (⟨(Storage.get key storage).2, disk⟩ : Beside σ) = _
    rw [hstorage]

namespace Vault
variable [Storage σ] [Storage.Still σ]

theorem readRecord_same (v : Vault σ) : v.readRecord.2 = v := by
  have hstorage := Storage.Still.get_same credentialsKey v.storage
  change { v with storage := (Storage.get credentialsKey v.storage).2 } = v
  rw [hstorage]

theorem storedSecret_same (userId : String) (v : Vault σ) : (v.storedSecret userId).2 = v :=
  v.readRecord_same

theorem load_storage (v : Vault σ) : v.load.2.storage = v.storage := by
  have hsame : v.readRecord.2.storage = v.storage := by rw [v.readRecord_same]
  unfold load
  rcases h : v.readRecord with ⟨_ | r, v'⟩ <;>
  · rw [h] at hsame
    exact hsame

end Vault

/-- What has been told and asked since another moment. -/
def Desk.toldSince (after before : Desk σ) : List Event := after.events.drop before.events.length

theorem Desk.toldSince_append {before after : Desk σ} {events : List Event}
    (h : after.events = before.events ++ events) : after.toldSince before = events := by
  simp [toldSince, h]

theorem Desk.Told.since {p : Event → Prop} {d d' : Desk σ} (h : d.Told p d') :
    ∀ e ∈ d'.toldSince d, p e := by
  obtain ⟨events, he, hp⟩ := h
  rwa [Desk.toldSince_append he]

theorem Desk.toldSince_trans {p q : Event → Prop} {d d₁ d' : Desk σ} (h : d.Told p d₁)
    (h' : d₁.Told q d') : d'.toldSince d = d₁.toldSince d ++ d'.toldSince d₁ := by
  obtain ⟨events, he, -⟩ := h
  obtain ⟨later, hl, -⟩ := h'
  rw [Desk.toldSince_append he, Desk.toldSince_append hl]
  rw [he, List.append_assoc] at hl
  exact Desk.toldSince_append hl

namespace Account

/-- What a registration says that succeeded. -/
def registered : Event := .printed (.success "Registration successful!")

/-- What a login says that succeeded. -/
def loggedIn : Event := .printed (.success "Login successful!")

theorem requestRegistration_tells :
    (requestRegistration (σ := σ)).Keeps (Desk.Told (· ≠ registered)) := by
  have hask (prompt : String) (hidden : Bool) :
      (Attempt.ask (σ := σ) prompt hidden).Keeps (Desk.Told (· ≠ registered)) :=
    Watched.ask fun _ => nofun
  have hcode : (requestCode (σ := σ)).Keeps (Desk.Told (· ≠ registered)) := by
    refine Watched.andThen (hask _ _) fun email => Watched.andThen (Watched.say ?_) fun _ =>
      Watched.andThen (Watched.call trivial) fun _ => Watched.andThen (Watched.say ?_) fun _ =>
      Watched.done _
    · decide
    · decide
  exact Watched.andThen hcode fun _ => Watched.andThen (hask _ _) fun _ =>
    Watched.andThen (hask _ _) fun _ => Watched.call trivial

theorem requestGrant_tells : (requestGrant (σ := σ)).Keeps (Desk.Told (· ≠ loggedIn)) := by
  have hask (prompt : String) (hidden : Bool) :
      (Attempt.ask (σ := σ) prompt hidden).Keeps (Desk.Told (· ≠ loggedIn)) :=
    Watched.ask fun _ => nofun
  exact Watched.andThen (hask _ _) fun _ => Watched.andThen (hask _ _) fun _ => Watched.call trivial

variable [Host σ]

theorem findSecret_tells (userId : String) :
    (findSecret (σ := σ) userId).Keeps (Desk.Told (· ≠ loggedIn)) := by
  have hlook : Console.Keeps (Desk.Told (· ≠ loggedIn))
      (Console.changeVault (Vault.storedSecret (σ := σ) userId)) :=
    ⟨fun d => ⟨[], (List.append_nil _).symm, by simp⟩⟩
  exact findSecret_lasts hlook (fun _ _ _ => nofun) (fun _ => nofun) (fun _ => nofun)

theorem findSecret_sameWire (userId : String) :
    (findSecret (σ := σ) userId).Keeps Desk.SameWire :=
  findSecret_lasts ⟨fun _ => rfl⟩ (fun _ _ _ => trivial) (fun _ => trivial) (fun _ => trivial)

theorem findSecret_sameVault [Storage.Still σ] (userId : String) :
    (findSecret (σ := σ) userId).Keeps Desk.SameVault :=
  findSecret_lasts ⟨fun d => d.vault.storedSecret_same userId⟩ (fun _ _ _ => trivial)
    (fun _ => trivial) (fun _ => trivial)

end Account

/-- Whether a secret is entered in the course of some events: as a line, or by the path of the file
that it is read from. -/
def Vault.EntryIn [Host σ] (v : Vault σ) (events : List Event) (secret : Secret) : Prop :=
  match v.scheme with
  | .hmac => .asked "Enter your secret key (sk_...):" true (some secret.text) ∈ events
  | .rsa => ∃ path, .asked "Enter path to your private key (PEM):" false (some path) ∈ events ∧
    Host.readText path v.storage = .ok secret.text

/-- Whether a secret is the one that is kept for a user or, if none is, one that is entered. -/
def Vault.SecretIn [Host σ] (v : Vault σ) (userId : String) (events : List Event)
    (secret : Secret) : Prop :=
  match (v.storedSecret userId).1 with
  | some stored => secret = stored
  | none => v.EntryIn events secret

theorem Vault.EntryIn.mono [Host σ] {v : Vault σ} {events more : List Event} {secret : Secret}
    (h : v.EntryIn events secret) (hm : ∀ e ∈ events, e ∈ more) : v.EntryIn more secret := by
  unfold EntryIn at h ⊢
  cases hs : v.scheme with
  | hmac =>
    rw [hs] at h
    exact hm _ h
  | rsa =>
    rw [hs] at h
    obtain ⟨path, hasked, hread⟩ := h
    exact ⟨path, hm _ hasked, hread⟩

theorem Vault.SecretIn.mono [Host σ] {v : Vault σ} {userId : String} {events more : List Event}
    {secret : Secret} (h : v.SecretIn userId events secret) (hm : ∀ e ∈ events, e ∈ more) :
    v.SecretIn userId more secret := by
  unfold SecretIn at h ⊢
  cases hs : (v.storedSecret userId).1 with
  | some stored =>
    rw [hs] at h
    exact h
  | none =>
    rw [hs] at h
    exact h.mono hm

section
variable {d d' : Desk σ}

namespace Account

open Attempt (surely)

variable [Host σ]

theorem askSecret_entry {secret : Secret} (h : d.perform askSecret.run = (.ok secret, d')) :
    d.vault.EntryIn (d'.toldSince d) secret := by
  obtain ⟨_, _, ⟨⟩, h⟩ := Attempt.bind_ok h
  unfold Vault.EntryIn
  cases hs : d.vault.scheme with
  | hmac =>
    rw [hs] at h
    obtain ⟨answer, d₁, hask, h⟩ := Attempt.bind_ok h
    obtain ⟨_, _, -, -, rfl⟩ := Attempt.ask_ok hask
    cases h
    rw [Desk.toldSince_append rfl]
    exact List.mem_singleton_self _
  | rsa =>
    rw [hs] at h
    obtain ⟨path, d₁, hask, h⟩ := Attempt.bind_ok h
    obtain ⟨_, _, -, -, rfl⟩ := Attempt.ask_ok hask
    obtain ⟨hread, rfl⟩ := readKeyFile_ok h
    rw [Desk.toldSince_append rfl]
    exact ⟨path, List.mem_singleton_self _, hread⟩

theorem findSecret_in [Storage.Still σ] {userId : String} {secret : Secret}
    (h : d.perform (findSecret userId).run = (.ok secret, d')) :
    d.vault.SecretIn userId (d'.toldSince d) secret := by
  obtain ⟨found, d₁, hseek, h⟩ := Attempt.bind_ok h
  have hfound : (d.vault.storedSecret userId).1 = found :=
    Except.ok.inj (congrArg Prod.fst hseek)
  unfold Vault.SecretIn
  rw [hfound]
  cases found with
  | some stored =>
    cases h
    rfl
  | none =>
    obtain rfl : _ = d₁ := congrArg Prod.snd hseek
    have hentry := askSecret_entry h
    have hvault : (d.perform (surely (seekSecret userId)).run).2.vault = d.vault :=
      d.vault.storedSecret_same userId
    rw [hvault] at hentry
    have hsought : d.Told (fun _ => True) (d.perform (surely (seekSecret userId)).run).2 :=
      ⟨_, rfl, fun _ _ => trivial⟩
    have hasked : Desk.Told (fun _ => True) _ d' :=
      Attempt.Keeps.ran (askSecret_lasts fun _ _ _ => trivial) h
    rw [Desk.toldSince_trans hsought hasked]
    exact hentry.mono fun e => List.mem_append_right _

end Account

/-- An attempt at new credentials changes nothing and tells of no success, or has what it was after
and keeps it. -/
theorem Console.attempt_comes_to {success : Event} {task : String} {act : Attempt σ α}
    {k : α → Vault σ → Vault σ} {lines : α → List Line}
    (hvault : act.Keeps Desk.SameVault) (htold : act.Keeps (Desk.Told (· ≠ success)))
    (herror : ∀ text, .printed (.error text) ≠ success)
    (hlines : ∀ a, success ∈ (lines a).map Event.printed)
    (h : (d.perform (attempt task do
      let a ← act
      Attempt.surely (changeVault fun v => ((), k a v))
      Attempt.tell (lines a))).2 = d') :
    (success ∉ d'.toldSince d ∧ d'.vault = d.vault) ∨
      (success ∈ d'.toldSince d ∧ ∃ a d₁, d.perform act.run = (.ok a, d₁) ∧ d'.wire = d₁.wire ∧
        (∀ e ∈ d₁.toldSince d, e ∈ d'.toldSince d) ∧ d'.vault = k a d.vault) := by
  rw [perform_attempt, Attempt.perform_bind] at h
  cases hact : d.perform act.run with
  | mk r d₁ =>
    have hsame : d₁.vault = d.vault := hvault.ran hact
    have hsince : d.Told (· ≠ success) d₁ := htold.ran hact
    rw [hact] at h
    cases r with
    | error f =>
      left
      have hend : d₁.Told (· ≠ success) d' := by
        rw [← h]
        exact ⟨_, rfl, fun e he => (List.mem_singleton.mp he) ▸ herror _⟩
      constructor
      · exact fun hs => (Watched.trans hsince hend).since _ hs rfl
      · rw [← h]
        exact hsame
    | ok a =>
      right
      have hend : d₁.Told (fun _ => True) d' := by
        rw [← h]
        exact ⟨_, rfl, fun _ _ => trivial⟩
      have htold : d'.toldSince d₁ = (lines a).map Event.printed := by
        rw [← h]
        exact Desk.toldSince_append rfl
      refine ⟨?_, a, d₁, rfl, ?_, ?_, ?_⟩
      · rw [Desk.toldSince_trans hsince hend, htold]
        exact List.mem_append_right _ (hlines a)
      · rw [← h]
        rfl
      · rw [Desk.toldSince_trans hsince hend]
        exact fun e => List.mem_append_left _
      · rw [← h]
        exact congrArg (k a) hsame

end

/-- What a registration has left that succeeded: what the platform's last answer says is kept. -/
def Desk.Registered [Storage σ] (d d' : Desk σ) : Prop := ∃ r email code password,
  d.LastAnswered d' (.register email code password) r ∧
    d'.vault = d.vault.save r.userId r.token ⟨r.secretKey⟩

/-- What a login has left that succeeded: what the platform's last answer says is kept, with the
secret that is stored for the user or else with the one that was entered. -/
def Desk.LoggedIn [Host σ] (d d' : Desk σ) : Prop := ∃ r email password secret,
  d.LastAnswered d' (.login email password) r ∧
    d.vault.SecretIn r.userId (d'.toldSince d) secret ∧
    d'.vault = d.vault.save r.userId r.token secret

namespace Account
variable [Host σ]

/-- A registration fails and leaves the vault alone, or keeps what the platform has answered. -/
theorem register_ends (d : Desk σ) : let d' := (d.perform register).2
    (registered ∉ d'.toldSince d ∧ d'.vault = d.vault) ∨
      (registered ∈ d'.toldSince d ∧ ∃ r d₁, d.perform requestRegistration.run = (.ok r, d₁) ∧
        d'.wire = d₁.wire ∧ d'.vault = d.vault.save r.userId r.token ⟨r.secretKey⟩) := by
  intro d'
  have hr : (d.perform register).2 = d' := rfl
  rcases Console.attempt_comes_to (k := fun r v => v.save r.userId r.token ⟨r.secretKey⟩)
    requestRegistration_keeps requestRegistration_tells (fun _ => nofun)
    (fun r => by simp [registrationLines, registered]) hr with h | ⟨hs, r, d₁, hr, hw, -, hv⟩
  · exact Or.inl h
  · exact Or.inr ⟨hs, r, d₁, hr, hw, hv⟩

theorem register_comes_to (d : Desk σ) : let d' := (d.perform register).2
    if registered ∈ d'.toldSince d then d.Registered d' else d'.vault = d.vault := by
  intro d'
  rcases register_ends d with ⟨hs, hv⟩ | ⟨hs, r, d₁, hr, hw, hv⟩
  · rw [if_neg hs]
    exact hv
  · rw [if_pos hs]
    obtain ⟨email, code, password, hlast⟩ := registration_last hr
    exact ⟨r, email, code, password, hlast.later hw, hv⟩

/-- A grant and the secret to keep with it. -/
def requestLogin : Attempt σ (Grant × Secret) := do
  let r ← requestGrant
  return (r, ← findSecret r.userId)

theorem login_eq : login (σ := σ) = Console.attempt "Login failed" (do
    let (r, secret) ← requestLogin
    save r.userId r.token secret
    Attempt.tell (loginLines r)) := by
  simp [login, requestLogin]

theorem requestLogin_ok [Storage.Still σ] {d d' : Desk σ} {r : Grant} {secret : Secret}
    (h : d.perform requestLogin.run = (.ok (r, secret), d')) :
    d.vault.SecretIn r.userId (d'.toldSince d) secret ∧
      ∃ email password, d.LastAnswered d' (.login email password) r := by
  obtain ⟨grant, d₁, hgrant, h⟩ := Attempt.bind_ok h
  obtain ⟨found, d₂, hfound, h⟩ := Attempt.bind_ok h
  cases h
  have hvault : d₁.vault = d.vault := (requestGrant_keeps (R := Desk.SameVault)).ran hgrant
  have hwire : d'.wire = d₁.wire := (findSecret_sameWire r.userId).ran hfound
  constructor
  · have hin := findSecret_in hfound
    rw [hvault] at hin
    have hasked : d.Told (· ≠ loggedIn) d₁ := requestGrant_tells.ran hgrant
    have hsought : d₁.Told (· ≠ loggedIn) d' := (findSecret_tells r.userId).ran hfound
    rw [Desk.toldSince_trans hasked hsought]
    exact hin.mono fun e => List.mem_append_right _
  · obtain ⟨email, password, hlast⟩ := grant_last hgrant
    exact ⟨email, password, hlast.later hwire⟩

/-- A login fails and leaves the vault alone, or keeps what was granted with a secret for it. -/
theorem login_ends [Storage.Still σ] (d : Desk σ) : let d' := (d.perform login).2
    (loggedIn ∉ d'.toldSince d ∧ d'.vault = d.vault) ∨
      (loggedIn ∈ d'.toldSince d ∧ ∃ r secret d₁, d.perform requestLogin.run = (.ok (r, secret), d₁) ∧
        d'.wire = d₁.wire ∧ (∀ e ∈ d₁.toldSince d, e ∈ d'.toldSince d) ∧
        d'.vault = d.vault.save r.userId r.token secret) := by
  intro d'
  have hl : (d.perform login).2 = d' := rfl
  rw [login_eq] at hl
  have hvault : (requestLogin (σ := σ)).Keeps Desk.SameVault :=
    .bind requestGrant_keeps fun r => .bind (findSecret_sameVault r.userId) fun _ => .pure _
  have htold : (requestLogin (σ := σ)).Keeps (Desk.Told (· ≠ loggedIn)) :=
    Watched.andThen requestGrant_tells fun r =>
      Watched.andThen (findSecret_tells r.userId) fun _ => Watched.done _
  rcases Console.attempt_comes_to (k := fun (r, secret) v => v.save r.userId r.token secret)
    hvault htold (fun _ => nofun) (fun (r, _) => by simp [loginLines, loggedIn]) hl with
    h | ⟨hs, ⟨r, secret⟩, d₁, hr, hw, hin, hv⟩
  · exact Or.inl h
  · exact Or.inr ⟨hs, r, secret, d₁, hr, hw, hin, hv⟩

theorem login_comes_to [Storage.Still σ] (d : Desk σ) : let d' := (d.perform login).2
    if loggedIn ∈ d'.toldSince d then d.LoggedIn d' else d'.vault = d.vault := by
  intro d'
  rcases login_ends d with ⟨hs, hv⟩ | ⟨hs, r, secret, d₁, hr, hw, hin, hv⟩
  · rw [if_neg hs]
    exact hv
  · rw [if_pos hs]
    obtain ⟨hsecret, email, password, hlast⟩ := requestLogin_ok hr
    exact ⟨r, email, password, secret, hlast.later hw, hsecret.mono hin, hv⟩

end Account

/-- The credentials are forgotten by a logout, replaced by a registration or a login that tells of
its success, and the same after every other line and every other outcome. -/
theorem Console.credentials_change_as_told [Host σ] [Storage.Still σ] (line : String)
    (d : Desk σ) : let d' := (d.perform (dispatch line)).2
    match Command.ofLine line with
    | .logout => d'.vault = d.vault.clear
    | .register =>
      if Account.registered ∈ d'.toldSince d then d.Registered d' else d'.vault = d.vault
    | .login => if Account.loggedIn ∈ d'.toldSince d then d.LoggedIn d' else d'.vault = d.vault
    | _ => d'.vault = d.vault := by
  rw [dispatch]
  generalize Command.ofLine line = c
  cases hc : c.reachesVault with
  | true =>
    cases c with
    | register => exact Account.register_comes_to d
    | login => exact Account.login_comes_to d
    | logout => rfl
    | _ => cases hc
  | false =>
    have hsame : Keeps Desk.SameVault (execute (σ := σ) c) := execute_keeps hc
    cases c with
    | register | login | logout => cases hc
    | _ => exact hsame.step d

/-- Bob logs in with the secret that he enters; where the line ends before that, he stays out. -/
theorem Console.bob_logs_in_with_secret :
    let desk (typed : List String) : Desk (Beside Memory) :=
      ⟨.of "http://api.test" .hmac .failOpen, .closed ⟨.empty, .empty []⟩ .hmac,
        ⟨true, [.reply 200 (Text.utf8 "\x7b\"user_id\":\"bob\",\"token\":\"jwt\"\x7d")],
          .hangUp, []⟩, 0, typed, []⟩
    let after (d : Desk (Beside Memory)) := (d.perform (dispatch "login")).2
    let whole := desk ["bob@example.com", "pw", "sk_bob"]
    let broken := desk ["bob@example.com", "pw"]
    whole.LoggedIn (after whole) ∧ (after broken).vault = broken.vault := by
  generalize hline : "login" = line
  intro desk after whole broken
  have htold : Account.loggedIn ∈ (whole.perform (dispatch line)).2.toldSince whole := by
    rw [← hline]
    decide +kernel
  have huntold : Account.loggedIn ∉ (broken.perform (dispatch line)).2.toldSince broken := by
    rw [← hline]
    decide +kernel
  have hcommand : Command.ofLine line = .login := by
    rw [← hline]
    rfl
  have hwhole := credentials_change_as_told line whole
  have hbroken := credentials_change_as_told line broken
  clear_value whole broken
  simp only [hcommand] at hwhole hbroken
  rw [if_pos htold] at hwhole
  rw [if_neg huntold] at hbroken
  exact ⟨hwhole, hbroken⟩

end SignedConsole
