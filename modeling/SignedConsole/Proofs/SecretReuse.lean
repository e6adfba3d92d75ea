import SignedConsole.Proofs.AccountOutcomes
import SignedConsole.Proofs.Rounds
import SignedConsole.Proofs.SessionMirror

namespace SignedConsole

variable {σ : Type} [Host σ]

/-- What a console is started with, besides its storage. -/
structure Visit where
  client : Client
  wire : Wire
  now : Clock
  typed : List String

namespace Visit

/-- The desk of a console that has loaded what the storage holds. -/
def desk (v : Visit) (scheme : Scheme) (s : σ) : Desk σ :=
  ⟨v.client, (Vault.closed s scheme).load.2, v.wire, v.now, v.typed, []⟩

/-- Whether the console tells that it has found a session. -/
def restored (scheme : Scheme) (s : σ) : Bool := (Vault.closed s scheme).load.1

/-- The desk at the end of the console's run. -/
def last (v : Visit) (scheme : Scheme) (s : σ) : Desk σ :=
  ((v.desk scheme s).perform (Console.run (restored scheme s))).2

end Visit

/-- The rounds of consoles that are run one after another over one storage. -/
inductive Visits (scheme : Scheme) : σ → List Visit → List (Round σ) → Prop where
  | none (s : σ) : Visits scheme s [] []
  | visit {v : Visit} {s : σ} {visits : List Visit} {rounds later : List (Round σ)}
      (h : Course ((v.desk scheme s).greeted (Visit.restored scheme s)) rounds (v.last scheme s))
      (hl : Visits scheme (v.last scheme s).vault.storage visits later) :
      Visits scheme s (v :: visits) (rounds ++ later)

theorem Visits.exist (scheme : Scheme) (visits : List Visit) (s : σ) :
    ∃ rounds, Visits scheme s visits rounds := by
  induction visits generalizing s with
  | nil => exact ⟨[], .none s⟩
  | cons v visits ih =>
    obtain ⟨rounds, h⟩ := Course.of_run (v.desk scheme s) (Visit.restored scheme s)
    obtain ⟨later, hl⟩ := ih (v.last scheme s).vault.storage
    exact ⟨rounds ++ later, .visit h hl⟩

namespace Visits
variable {scheme : Scheme} {s : σ} {visits : List Visit} {rounds : List (Round σ)}

theorem of_none (h : Visits scheme s [] rounds) : rounds = [] := by
  cases h
  rfl

theorem of_visit {v : Visit} (h : Visits scheme s (v :: visits) rounds) : ∃ first later,
    rounds = first ++ later ∧
    Course ((v.desk scheme s).greeted (Visit.restored scheme s)) first (v.last scheme s) ∧
    Visits scheme (v.last scheme s).vault.storage visits later := by
  cases h with
  | visit h hl => exact ⟨_, _, rfl, h, hl⟩

end Visits

/-- The round of a line that is typed next. -/
def Round.of (d : Desk σ) (line : String) (rest : List String) : Round σ :=
  let heard := d.reading (promptFor d.vault.session) false line rest
  ⟨d, line, heard, (heard.perform (Console.execute (.ofLine (Text.trim line)))).2⟩

theorem Round.Runs.eq_of {r : Round σ} {next : Next} (h : r.Runs next) :
    r = .of r.before r.line r.heard.typed := by
  obtain ⟨before, line, heard, after⟩ := r
  obtain ⟨-, hheard, hran⟩ := h
  simp only [of, ← show heard = _ from hheard]
  exact congrArg _ (congrArg Prod.snd hran).symm

namespace Course
variable {d last : Desk σ} {rounds : List (Round σ)}

theorem of_nothing_typed (h : Course d rounds last) (ht : d.typed = []) : rounds = [] := by
  cases h with
  | closed _ => rfl
  | left h | on h _ =>
    have hline := h.typed
    rw [ht] at hline
    cases hline

/-- A course begins with the round of the line that is typed next, and goes on unless that says to
leave. -/
theorem of_typed {line : String} {rest : List String} (h : Course d rounds last)
    (ht : d.typed = line :: rest) (hstays : Command.ofLine (Text.trim line) ≠ .leave) :
    ∃ later, rounds = .of d line rest :: later ∧ Course (Round.of d line rest).after later last := by
  cases h with
  | closed h =>
    rw [h] at ht
    cases ht
  | @left r h =>
    obtain ⟨rfl, rfl⟩ := List.cons.inj (h.typed.symm.trans ht)
    exact absurd (r.command_leave.mpr (h.leaves.mp rfl)) hstays
  | @on r later _ h hlater =>
    obtain ⟨rfl, rfl⟩ := List.cons.inj (h.typed.symm.trans ht)
    rw [← h.eq_of]
    exact ⟨later, rfl, hlater⟩

end Course

/-- Rounds each of which takes the vault over from the one before, or anew from its storage. -/
inductive Linked (scheme : Scheme) : Vault σ → List (Round σ) → Prop where
  | done (v : Vault σ) : Linked scheme v []
  | round {r : Round σ} {next : Next} {rounds : List (Round σ)} (h : r.Runs next)
      (later : Linked scheme r.after.vault rounds) : Linked scheme r.before.vault (r :: rounds)
  | reloaded {v : Vault σ} {rounds : List (Round σ)}
      (later : Linked scheme (Vault.closed v.storage scheme).load.2 rounds) :
      Linked scheme v rounds

theorem Course.linked {scheme : Scheme} {d last : Desk σ} {rounds later : List (Round σ)}
    (h : Course d rounds last) (hl : Linked scheme last.vault later) :
    Linked scheme d.vault (rounds ++ later) := by
  induction h with
  | closed _ => exact hl
  | left h => exact .round h hl
  | on h _ ih => exact .round h (ih hl)

theorem Visits.linked {scheme : Scheme} {s : σ} {visits : List Visit} {rounds : List (Round σ)}
    (h : Visits scheme s visits rounds) (v : Vault σ) (hv : v.storage = s) :
    Linked scheme v rounds := by
  induction h generalizing v with
  | none s => exact .done v
  | visit h _ ih =>
    subst hv
    exact .reloaded (h.linked (ih _ rfl))

namespace Linked
variable {scheme : Scheme} {P : Vault σ → Prop} {v : Vault σ}

/-- What survives a restart still holds where the next round begins. -/
theorem next {r : Round σ} {rounds : List (Round σ)} (h : Linked scheme v (r :: rounds))
    (hload : ∀ v, P v → P (Vault.closed v.storage scheme).load.2) (hv : P v) :
    P r.before.vault ∧ (∃ next, r.Runs next) ∧ Linked scheme r.after.vault rounds := by
  generalize hall : r :: rounds = all at h
  induction h with
  | done => cases hall
  | round h later =>
    cases hall
    exact ⟨hv, ⟨_, h⟩, later⟩
  | reloaded _ ih => exact ih (hload _ hv) hall

/-- What survives a restart and each of some rounds survives all of them. -/
theorem carry {first later : List (Round σ)} (h : Linked scheme v (first ++ later))
    (hload : ∀ v, P v → P (Vault.closed v.storage scheme).load.2)
    (hround : ∀ r ∈ first, ∀ next, r.Runs next → P r.before.vault → P r.after.vault) (hv : P v) :
    ∃ v', P v' ∧ Linked scheme v' later := by
  induction first generalizing v with
  | nil => exact ⟨v, hv, h⟩
  | cons r first ih =>
    obtain ⟨hbefore, ⟨next, hr⟩, hafter⟩ := h.next hload hv
    refine ih hafter (fun q hq => hround q (List.mem_cons_of_mem _ hq)) ?_
    exact hround r List.mem_cons_self next hr hbefore

end Linked

section
variable [Reliable σ]

/-- A vault under a scheme whose storage refuses nothing. -/
structure Vault.Sound (scheme : Scheme) (v : Vault σ) : Prop where
  healthy : Reliable.Healthy v.storage
  kept : v.scheme = scheme

/-- A vault from which a secret is read for a user. -/
structure Vault.Holds (scheme : Scheme) (userId : String) (secret : Secret) (v : Vault σ) : Prop
    extends Vault.Sound scheme v where
  record : ∃ token, Record.ofStored? scheme (Reliable.content v.storage) =
    some ⟨userId, token, some secret⟩

namespace Vault
variable {scheme : Scheme} {userId : String} {secret : Secret} {v : Vault σ}

theorem Sound.load (h : Sound scheme v) : Sound scheme (closed v.storage scheme).load.2 := by
  obtain ⟨s', hs', _, hl⟩ := load_stored (v := closed v.storage scheme) h.healthy
  rw [hl]
  exact ⟨hs', rfl⟩

theorem Holds.load (h : Holds scheme userId secret v) :
    Holds scheme userId secret (closed v.storage scheme).load.2 := by
  obtain ⟨s', hs', hc, hl⟩ := load_stored (v := closed v.storage scheme) h.healthy
  obtain ⟨token, hr⟩ := h.record
  rw [hl]
  exact ⟨⟨hs', rfl⟩, token, by rw [hc]; exact hr⟩

theorem Sound.save (h : Sound scheme v) (userId token : String) (secret : Secret) :
    Sound scheme (v.save userId token secret) := by
  obtain ⟨s', hset, hs', _⟩ := Reliable.set_ok h.healthy
    ((⟨userId, token, some secret⟩ : Record).print v.scheme)
  rw [Vault.save, hset]
  exact ⟨hs', h.kept⟩

/-- What is saved is read back, unless it is empty. -/
theorem Sound.save_holds (h : Sound scheme v) (userId token : String) (hne : secret.text ≠ "") :
    Holds scheme userId secret (v.save userId token secret) := by
  obtain ⟨s', hset, hs', hc⟩ := Reliable.set_ok h.healthy
    ((⟨userId, token, some secret⟩ : Record).print v.scheme)
  have hfull : (some secret).filter (fun s => !s.isEmpty) = some secret := by
    simp [Secret.isEmpty, hne]
  rw [Vault.save, hset]
  refine ⟨⟨hs', h.kept⟩, token, ?_⟩
  rw [hc, h.kept, Record.ofStored_print, Record.readUnder, if_pos rfl, hfull]

theorem Sound.clear (h : Sound scheme v) : Sound scheme v.clear := by
  obtain ⟨s', hremove, hs', _⟩ := Reliable.remove_ok h.healthy
  rw [Vault.clear, hremove]
  exact ⟨hs', h.kept⟩

theorem Sound.storedSecret (h : Sound scheme v) (userId : String) :
    Sound scheme (v.storedSecret userId).2 := by
  obtain ⟨s', hget, hs', _⟩ := Reliable.get_ok h.healthy
  have hvault : (v.storedSecret userId).2 = { v with storage := s' } := by
    rw [Vault.storedSecret, readRecord, hget]
  rw [hvault]
  exact ⟨hs', h.kept⟩

/-- The secret is found for its user. -/
theorem Holds.found (h : Holds scheme userId secret v) :
    (v.storedSecret userId).1 = some secret := by
  obtain ⟨s', hget, _, _⟩ := Reliable.get_ok h.healthy
  obtain ⟨token, hr⟩ := h.record
  have hread : v.readRecord.1 = some ⟨userId, token, some secret⟩ := by
    rw [readRecord_answer, hget, h.kept]
    exact hr
  rw [storedSecret_answer, hread, Option.filter_some, if_pos (beq_self_eq_true userId)]
  rfl

end Vault

/-- A sound vault has stayed sound. -/
def Desk.SoundOn (d d' : Desk σ) : Prop :=
  ∀ scheme, Vault.Sound scheme d.vault → Vault.Sound scheme d'.vault

instance : Enduring (@Desk.SoundOn σ _ _) where
  refl _ _ h := h
  trans h h' scheme hs := h' scheme (h scheme hs)
  recorded _ _ _ _ h := h
  read _ _ _ _ _ _ _ h := h
  called _ _ _ h := h
  probed _ _ h := h
  sought _ userId _ h := h.storedSecret userId
  saved _ userId token secret _ h := h.save userId token secret
  forgotten _ _ h := h.clear

end

/-- What a registration is answered with that is asked for here. -/
def Desk.registration? (d : Desk σ) : Option Registration :=
  (d.perform Account.requestRegistration.run).1.toOption

/-- What a login is answered with that is asked for here. -/
def Desk.grant? (d : Desk σ) : Option Grant := (d.perform Account.requestGrant.run).1.toOption

namespace Round

/-- A registration that tells of its success. -/
def Registers (r : Round σ) : Prop :=
  r.command = .register ∧ Account.registered ∈ r.after.toldSince r.heard

/-- A login that is answered for a user, and tells of its success. -/
def LogsIn (r : Round σ) (userId : String) : Prop :=
  r.command = .login ∧ Account.loggedIn ∈ r.after.toldSince r.heard ∧
    ∃ token, r.heard.grant? = some ⟨userId, token⟩

/-- A registration or a login that succeeds and keeps a secret for a user. -/
def Stores (r : Round σ) (userId : String) (secret : Secret) : Prop :=
  (r.Registers ∨ r.LogsIn userId) ∧
    ∃ token, r.after.vault = r.heard.vault.save userId token secret

/-- What a secret does not outlast: a logout, a registration that succeeds, and a login of another
user that does. -/
def Replaces (r : Round σ) (userId : String) : Prop :=
  r.command = .logout ∨ r.Registers ∨ ∃ other ≠ userId, r.LogsIn other

end Round

namespace Account
variable {d d' : Desk σ}

omit [Host σ] in
theorem requestGrant_asks {r : Grant} (h : d.perform requestGrant.run = (.ok r, d')) :
    d'.vault = d.vault ∧ ∃ email password, d'.events = d.events ++
      [.asked "Enter email:" false (some email), .asked "Enter password:" true (some password)] := by
  refine ⟨(requestGrant_keeps (R := Desk.SameVault)).ran h, ?_⟩
  obtain ⟨email, d₁, hemail, h⟩ := Attempt.bind_ok h
  obtain ⟨password, d₂, hpassword, h⟩ := Attempt.bind_ok h
  obtain ⟨_, _, -, -, h₁⟩ := Attempt.ask_ok hemail
  obtain ⟨_, _, -, -, h₂⟩ := Attempt.ask_ok hpassword
  have hcall : d'.events = d₂.events := by
    rw [Attempt.call_run] at h
    exact (congrArg (Desk.events ∘ Prod.snd) h).symm
  refine ⟨email, password, ?_⟩
  rw [hcall, h₂, h₁]
  exact List.append_assoc ..

theorem requestLogin_grant {r : Grant} {secret : Secret}
    (h : d.perform requestLogin.run = (.ok (r, secret), d')) : d.grant? = some r := by
  obtain ⟨grant, d₁, hgrant, h⟩ := Attempt.bind_ok h
  obtain ⟨found, d₂, -, h⟩ := Attempt.bind_ok h
  cases h
  rw [Desk.grant?, hgrant]
  rfl

/-- A secret that is kept is not asked for. -/
theorem findSecret_kept [Storage.Still σ] {userId : String} {secret : Secret}
    (h : (d.vault.storedSecret userId).1 = some secret) :
    d.perform (findSecret userId).run = (.ok secret, { d with
      events := d.events ++ [.printed (.info "Secret key loaded from local storage")] }) := by
  have hlook : d.perform (Console.changeVault (Vault.storedSecret userId)) =
      ((d.vault.storedSecret userId).1,
        { d with vault := (d.vault.storedSecret userId).2 }) := rfl
  rw [d.vault.storedSecret_same, h] at hlook
  have hseek : d.perform (seekSecret userId) = (some secret, { d with
      events := d.events ++ [.printed (.info "Secret key loaded from local storage")] }) := by
    rw [seekSecret, Desk.perform_bind, hlook]
    rfl
  rw [findSecret, Attempt.perform_bind, Attempt.surely_run, hseek]
  rfl

/-- A login of a user whose secret is kept. -/
theorem login_reuses [Storage.Still σ] {userId token : String} {secret : Secret}
    (hkept : (d.vault.storedSecret userId).1 = some secret)
    (hgrant : d.grant? = some ⟨userId, token⟩) : let d' := (d.perform login).2
    d'.vault = d.vault.save userId token secret ∧ ∃ email password,
      d'.events = d.events ++ [.asked "Enter email:" false (some email),
        .asked "Enter password:" true (some password),
        .printed (.info "Secret key loaded from local storage")] ++
        (loginLines ⟨userId, token⟩).map Event.printed := by
  intro d'
  have hl : (d.perform login).2 = d' := rfl
  obtain ⟨d₁, hrun⟩ : ∃ d₁, d.perform requestGrant.run = (.ok ⟨userId, token⟩, d₁) := by
    cases hr : d.perform requestGrant.run with
    | mk r d₁ =>
      rw [Desk.grant?, hr] at hgrant
      cases r with
      | error f => cases hgrant
      | ok r => exact ⟨d₁, by rw [Option.some.inj hgrant]⟩
  obtain ⟨hvault, email, password, hasked⟩ := requestGrant_asks hrun
  rw [← hvault] at hkept ⊢
  have hfind := findSecret_kept hkept
  rw [login, Console.perform_attempt, Attempt.perform_bind, hrun] at hl
  simp only [Attempt.perform_bind, hfind] at hl
  rw [← hl]
  refine ⟨rfl, email, password, ?_⟩
  change d₁.events ++ _ ++ _ = _
  rw [hasked, List.append_assoc d.events]
  rfl

end Account

namespace Round
variable [Reliable σ] [Storage.Still σ] {scheme : Scheme} {r : Round σ} {next : Next}
  {userId token : String} {secret : Secret}

omit [Reliable σ] [Storage.Still σ] in
theorem Runs.heard_vault (h : r.Runs next) : r.heard.vault = r.before.vault := by
  rw [h.heard]
  rfl

omit [Reliable σ] [Storage.Still σ] in
theorem Runs.performs {act : Console σ Unit} (h : r.Runs next)
    (hact : Console.execute r.command = do act; return .goOn) :
    (r.heard.perform act).2 = r.after := by
  have hran := h.ran
  rw [hact, Desk.perform_bind] at hran
  exact congrArg Prod.snd hran

omit [Reliable σ] [Storage.Still σ] in
/-- A registration that succeeds keeps the secret that it is answered with. -/
theorem Runs.registers (h : r.Runs next) (hr : r.Registers) :
    ∃ reg, r.heard.registration? = some reg ∧ r.Stores reg.userId ⟨reg.secretKey⟩ := by
  have hends := Account.register_ends r.heard
  rw [h.performs (by rw [hr.1]; rfl)] at hends
  rcases hends with ⟨huntold, -⟩ | ⟨-, reg, _, hrun, -, hsaved⟩
  · exact absurd hr.2 huntold
  · refine ⟨reg, ?_, Or.inl hr, reg.token, hsaved⟩
    rw [Desk.registration?, hrun]
    rfl

omit [Storage.Still σ] in
theorem Runs.sound (h : r.Runs next) (hs : Vault.Sound scheme r.before.vault) :
    Vault.Sound scheme r.after.vault :=
  (h.endures (R := Desk.SoundOn)).2 scheme ((h.endures (R := Desk.SoundOn)).1 scheme hs)

omit [Storage.Still σ] in
theorem Runs.stores (h : r.Runs next) (hs : Vault.Sound scheme r.before.vault)
    (hstores : r.Stores userId secret) (hne : secret.text ≠ "") :
    Vault.Holds scheme userId secret r.after.vault := by
  obtain ⟨-, token, hvault⟩ := hstores
  rw [hvault, h.heard_vault]
  exact hs.save_holds userId token hne

/-- A login leaves a secret where it is kept, or is another user's that succeeds. -/
theorem Runs.login_holds (h : r.Runs next) (hc : r.command = .login) (hne : secret.text ≠ "")
    (hs : Vault.Holds scheme userId secret r.heard.vault) :
    Vault.Holds scheme userId secret r.after.vault ∨ ∃ other ≠ userId, r.LogsIn other := by
  have hends := Account.login_ends r.heard
  rw [h.performs (by rw [hc]; rfl)] at hends
  rcases hends with ⟨-, hsame⟩ | ⟨htold, grant, found, _, hrun, -, -, hsaved⟩
  · left
    rwa [hsame]
  · by_cases hu : grant.userId = userId
    · left
      have hin := (Account.requestLogin_ok hrun).1
      rw [Vault.SecretIn, hu, hs.found] at hin
      rw [hsaved, hu, show found = secret from hin]
      exact hs.toSound.save_holds userId grant.token hne
    · exact Or.inr ⟨_, hu, hc, htold, _, Account.requestLogin_grant hrun⟩

/-- A round that does not replace a secret leaves it where it is kept. -/
theorem Runs.holds (h : r.Runs next) (hr : ¬ r.Replaces userId) (hne : secret.text ≠ "")
    (hs : Vault.Holds scheme userId secret r.before.vault) :
    Vault.Holds scheme userId secret r.after.vault := by
  rw [← h.heard_vault] at hs
  by_cases hc : r.command.reachesVault = true
  · cases hcommand : r.command with
    | register =>
      have hends := Account.register_ends r.heard
      rw [h.performs (by rw [hcommand]; rfl)] at hends
      rcases hends with ⟨-, hsame⟩ | ⟨htold, -⟩
      · rwa [hsame]
      · exact absurd (Or.inr (Or.inl ⟨hcommand, htold⟩)) hr
    | login => exact (h.login_holds hcommand hne hs).resolve_right fun ho => hr (.inr (.inr ho))
    | logout => exact absurd (Or.inl hcommand) hr
    | _ =>
      rw [hcommand] at hc
      cases hc
  · have hsame : Desk.SameVault r.heard (r.heard.perform (Console.execute r.command)).2 :=
      (Console.execute_keeps (Bool.eq_false_iff.mpr hc)).step r.heard
    rw [h.ran] at hsame
    rwa [show r.after.vault = r.heard.vault from hsame]

/-- A login of the user whose secret is kept takes it from there. -/
theorem Runs.reuses (h : r.Runs next) (hs : Vault.Holds scheme userId secret r.before.vault)
    (hc : r.command = .login) (hgrant : r.heard.grant? = some ⟨userId, token⟩) :
    r.after.vault = r.heard.vault.save userId token secret ∧ ∃ email password,
      r.after.events = r.heard.events ++ [.asked "Enter email:" false (some email),
        .asked "Enter password:" true (some password),
        .printed (.info "Secret key loaded from local storage")] ++
        (Account.loginLines ⟨userId, token⟩).map Event.printed := by
  rw [← h.heard_vault] at hs
  have hlogin := Account.login_reuses hs.found hgrant
  rwa [h.performs (by rw [hc]; rfl)] at hlogin

end Round

/-- A secret that a registration or a login has kept for a user is taken by the user's next login,
whatever comes between that does not replace it: other commands, logins that fail, and consoles that
end and are started anew. The login asks for no secret, succeeds, and is of that user with that
secret. -/
theorem Visits.kept_secret_is_reused [Reliable σ] [Storage.Still σ] (scheme : Scheme) (s : σ)
    (hs : Reliable.Healthy s) (visits : List Visit) :
    (∃ rounds, Visits scheme s visits rounds) ∧
    ∀ (earlier : List (Round σ)) (kept : Round σ) (between : List (Round σ)) (login : Round σ)
      (later : List (Round σ)) (userId token : String) (secret : Secret),
      Visits scheme s visits (earlier ++ kept :: (between ++ login :: later)) →
      kept.Stores userId secret → secret.text ≠ "" → (∀ r ∈ between, ¬ r.Replaces userId) →
      login.command = .login → login.heard.grant? = some ⟨userId, token⟩ →
      (∃ email password, login.after.events = login.heard.events ++
        [.asked "Enter email:" false (some email), .asked "Enter password:" true (some password),
          .printed (.info "Secret key loaded from local storage")] ++
        (Account.loginLines ⟨userId, token⟩).map Event.printed) ∧
      login.LogsIn userId ∧ login.Stores userId secret ∧
      login.after.vault.session =
        ⟨Session.nonEmpty userId, Session.nonEmpty token, some secret⟩ := by
  refine ⟨Visits.exist scheme visits s, ?_⟩
  intro earlier kept between login later userId token secret hvisits hkept hne hbetween hc hgrant
  have hlinked := hvisits.linked (.closed s scheme) rfl
  -- Up to the round that keeps the secret the storage refuses nothing.
  obtain ⟨v, hv, hlinked⟩ := hlinked.carry (P := Vault.Sound scheme) (fun _ => Vault.Sound.load)
    (fun r _ _ hr => hr.sound) ⟨hs, rfl⟩
  obtain ⟨hv, ⟨_, hrun⟩, hlinked⟩ := hlinked.next (fun _ => Vault.Sound.load) hv
  -- From there on the secret stays where it is kept.
  have hholds := hrun.stores hv hkept hne
  obtain ⟨v, hv, hlinked⟩ := hlinked.carry (P := Vault.Holds scheme userId secret)
    (fun _ => Vault.Holds.load) (fun r hr _ h => h.holds (hbetween r hr) hne) hholds
  obtain ⟨hv, ⟨_, hrun⟩, -⟩ := hlinked.next (fun _ => Vault.Holds.load) hv
  obtain ⟨hvault, email, password, hevents⟩ := hrun.reuses hv hc hgrant
  have hlogs : login.LogsIn userId := by
    refine ⟨hc, ?_, token, hgrant⟩
    rw [Desk.toldSince_append (hevents.trans (List.append_assoc ..))]
    simp [Account.loginLines, Account.loggedIn]
  refine ⟨⟨email, password, hevents⟩, hlogs, ⟨Or.inr hlogs, token, hvault⟩, ?_⟩
  rw [hvault]
  simp [Vault.save, Session.of, Secret.isEmpty, hne]

/-- Alice registers, and later logs in at the second attempt, with no secret typed. -/
theorem Visits.alice_keeps_her_secret :
    let client := Client.of "http://api.test" .hmac .failOpen
    let storage : Beside Memory := ⟨.empty, .empty []⟩
    let first : Visit := ⟨client, ⟨true, [.reply 200 (Text.utf8 "\x7b\x7d"), .reply 200 (Text.utf8
      "\x7b\"user_id\":\"alice\",\"token\":\"jwt\",\"secret_key\":\"sk_alice\"\x7d")], .hangUp, []⟩,
      0, ["register", "alice@example.com", "123456", "pw"]⟩
    let second : Visit := ⟨client, ⟨true, [.hangUp, .reply 200 (Text.utf8
      "\x7b\"user_id\":\"alice\",\"token\":\"later\"\x7d")], .hangUp, []⟩, 0,
      ["login", "alice@example.com", "oops", "login", "alice@example.com", "pw"]⟩
    let desk (v : Visit) (s : Beside Memory) := (v.desk .hmac s).greeted (Visit.restored .hmac s)
    let register : Round (Beside Memory) :=
      .of (desk first storage) "register" ["alice@example.com", "123456", "pw"]
    let failed : Round (Beside Memory) :=
      .of (desk second (first.last .hmac storage).vault.storage) "login"
        ["alice@example.com", "oops", "login", "alice@example.com", "pw"]
    let login : Round (Beside Memory) := .of failed.after "login" ["alice@example.com", "pw"]
    Visits .hmac storage [first, second] [register, failed, login] ∧
      register.Stores "alice" ⟨"sk_alice"⟩ ∧ ¬ failed.Replaces "alice" ∧
      login.heard.grant? = some ⟨"alice", "later"⟩ ∧
      login.after.vault.session = ⟨some "alice", some "later", some ⟨"sk_alice"⟩⟩ := by
  intro client storage first second desk register failed login
  obtain ⟨⟨rounds, hvisits⟩, hreuse⟩ := kept_secret_is_reused .hmac storage trivial [first, second]
  have hregister : Command.ofLine (Text.trim "register") = .register := rfl
  have hlogin : Command.ofLine (Text.trim "login") = .login := rfl
  have htold : register.after.typed = [] ∧
      Account.registered ∈ register.after.toldSince register.heard ∧
      register.heard.registration? = some ⟨"alice", "", "jwt", "sk_alice"⟩ := by
    decide +kernel
  have hlater :
      failed.after.typed = ["login", "alice@example.com", "pw"] ∧
      Account.loggedIn ∉ failed.after.toldSince failed.heard ∧
      login.heard.grant? = some ⟨"alice", "later"⟩ ∧ login.after.typed = [] := by
    decide +kernel
  obtain ⟨_, _, rfl, hfirst, hvisits'⟩ := hvisits.of_visit
  obtain ⟨_, _, rfl, hsecond, hvisits'⟩ := hvisits'.of_visit
  obtain rfl := hvisits'.of_none
  obtain ⟨_, rfl, hdone⟩ := hfirst.of_typed rfl (by rw [hregister]; nofun)
  replace hdone : Course register.after _ _ := hdone
  obtain rfl := hdone.of_nothing_typed htold.1
  obtain ⟨_, rfl, hback⟩ := hsecond.of_typed rfl (by rw [hlogin]; nofun)
  replace hback : Course failed.after _ _ := hback
  obtain ⟨_, rfl, hdone⟩ := hback.of_typed hlater.1 (by rw [hlogin]; nofun)
  replace hdone : Course login.after _ _ := hdone
  obtain rfl := hdone.of_nothing_typed hlater.2.2.2
  have hstores : register.Stores "alice" ⟨"sk_alice"⟩ := by
    obtain ⟨_, hruns⟩ := hfirst.runs List.mem_cons_self
    obtain ⟨reg, hreg, hstores⟩ := hruns.registers ⟨hregister, htold.2.1⟩
    rw [Option.some.inj (hreg.symm.trans htold.2.2)] at hstores
    exact hstores
  have hfails : ¬ failed.Replaces "alice" := by
    have hcommand : failed.command = .login := hlogin
    rintro (h | ⟨h, -⟩ | ⟨_, -, -, h, -⟩)
    · rw [hcommand] at h
      cases h
    · rw [hcommand] at h
      cases h
    · exact hlater.2.1 h
  refine ⟨hvisits, hstores, hfails, hlater.2.2.1, ?_⟩
  exact (hreuse [] register [failed] login [] "alice" "later" ⟨"sk_alice"⟩ hvisits hstores
    (by decide) (by simpa using hfails) hlogin hlater.2.2.1).2.2.2

end SignedConsole
