import SignedConsole.Program.Run
import SignedConsole.Proofs.SecretReuse
import SignedConsole.Proofs.SettingsRoundTrip
import SignedConsole.Proofs.SharedStorage
import SignedConsole.Proofs.StateFiles

namespace SignedConsole

/-- A session that is the one in the storage has stayed so. -/
def Desk.MirrorsOn [Storage σ] [Reliable σ] (d d' : Desk σ) : Prop :=
  ∀ scheme, Vault.Mirrors scheme d.vault → Vault.Mirrors scheme d'.vault

theorem Vault.Mirrors.storedSecret [Storage σ] [Reliable σ] {scheme : Scheme} {v : Vault σ}
    (h : Mirrors scheme v) (userId : String) : Mirrors scheme (v.storedSecret userId).2 := by
  obtain ⟨s', hs', hkept, hvault, -⟩ := storedSecret_kept (v := v) h.healthy userId
  have hcontent : Reliable.content s' = Reliable.content v.storage := hkept
  rw [hvault]
  exact ⟨hs', h.kept, by rw [hcontent]; exact h.session⟩

instance [Storage σ] [Reliable σ] : Enduring (@Desk.MirrorsOn σ _ _) where
  refl _ _ h := h
  trans h h' scheme hm := h' scheme (h scheme hm)
  recorded _ _ _ _ h := h
  read _ _ _ _ _ _ _ h := h
  called _ _ _ h := h
  probed _ _ h := h
  sought _ userId _ h := h.storedSecret userId
  saved _ userId token secret _ h := (h.save userId token secret).1
  forgotten _ _ h := h.clear.1

/-- The disk beside a storage is as it was. -/
def Desk.SameDisk [Storage σ] (d d' : Desk (Beside σ)) : Prop :=
  d'.vault.storage.disk = d.vault.storage.disk

instance [Storage σ] : Enduring (@Desk.SameDisk σ _) where
  refl _ := rfl
  trans h h' := Eq.trans h' h
  recorded _ _ _ := rfl
  read _ _ _ _ _ _ := rfl
  called _ _ := rfl
  probed _ := rfl
  sought _ _ := rfl
  saved _ _ _ _ := rfl
  forgotten _ := rfl

namespace Visit
variable [Host σ] (v w : Visit) (scheme : Scheme) (s : σ)

/-- What endures leads from the greeting to the end of a visit. -/
theorem last_endures {R : Desk σ → Desk σ → Prop} [Enduring R] :
    R ((v.desk scheme s).greeted (restored scheme s)) (v.last scheme s) := by
  obtain ⟨rounds, h⟩ := Course.of_run (v.desk scheme s) (restored scheme s)
  exact h.endures.1

/-- All that a visit shows stands behind the greeting. -/
theorem last_events : ∃ told, (v.last scheme s).events =
    (Console.greeting (restored scheme s) (v.desk scheme s).vault.session.user).map Event.printed ++
      told := by
  obtain ⟨_, told, -, he, -⟩ := v.last_endures scheme s (R := Desk.ReadOn)
  exact ⟨told, he⟩

variable [Reliable σ] {s}

theorem last_mirrors (hs : Reliable.Healthy s) :
    Vault.Mirrors scheme (v.last scheme s).vault :=
  v.last_endures scheme s (R := Desk.MirrorsOn) scheme (Vault.mirrors_loaded hs scheme)

/-- A later visit to the storage begins with the session that the earlier one has left, and tells so
if that is a session of anyone. -/
theorem session_found (hs : Reliable.Healthy s) : let left := (v.last scheme s).vault
    (w.desk scheme left.storage).vault.session = left.session ∧
      (left.session ≠ .anonymous → restored scheme left.storage = true) := by
  intro left
  have h : Vault.Mirrors scheme left := v.last_mirrors scheme hs
  have hopened : left.reopened = (Vault.closed left.storage scheme).load := by
    rw [Vault.reopened, h.kept]
  obtain ⟨hfound, hsession⟩ := h.reopened
  rw [hopened] at hfound hsession
  refine ⟨hsession, fun hne => ?_⟩
  rw [restored, hfound]
  by_contra hnone
  rw [Bool.not_eq_true, Option.isSome_eq_false_iff, Option.isNone_iff_eq_none] at hnone
  exact hne (by rw [h.session, Vault.sessionOf, hnone]; rfl)

end Visit

/-- The desk of a visit before anything is loaded. -/
def Visit.unloaded [Host σ] (v : Visit) (scheme : Scheme) (s : σ) : Desk σ :=
  ⟨v.client, .closed s scheme, v.wire, v.now, v.typed, []⟩

/-- A storage of files stays in its directory. -/
theorem Visit.last_dir (v : Visit) (scheme : Scheme) {s : FileStorage} (hs : s.disk.Sound) :
    (v.last scheme s).vault.storage.dir = s.dir := by
  have hkept : FileStorage.Kept s ((v.desk scheme s).greeted (restored scheme s)).vault.storage := by
    rw [Desk.greeted, desk, Vault.load_storage]
    exact ⟨rfl, .refl s.dir hs⟩
  exact (v.last_endures scheme s (R := Desk.StaysKept s) hkept).dir

namespace Program

/-- The settings of a start. -/
def Start.settings (s : Start) (o : Options) : Settings := o.settings s.environment s.disk

/-- What the console of a start is started with, besides its storage. -/
def Start.visit (s : Start) (o : Options) : Visit where
  client := .of (s.settings o).baseUrl (s.settings o).scheme (s.settings o).policy
  wire := s.wire
  now := s.now
  typed := typedLines s.input

/-- The directory that a start keeps credentials in, if it keeps them. -/
def Start.place (s : Start) (o : Options) : Option String :=
  if o.ephemeral then none else (s.settings o).resolvedStateDir s.environment

/-- What is told of settings that have been saved. -/
def notice : Option String → String
  | some path => "Saved configuration to " ++ path ++ "\n"
  | none => ""

def shown (events : List Event) : String := String.join (events.map eventText)

/-- A start that comes to its console: what is asked of it, where its settings have been saved, if
they have been, and the disk that the console finds. -/
structure Start.Opens (s : Start) (o : Options) (saved : Option String) (disk : Disk) : Prop where
  args : Invocation.ofArgs s.args = .console o
  persisted : o.persist s.environment (s.settings o) s.disk = (.ok saved, disk)

theorem shown_append (events later : List Event) :
    shown (events ++ later) = shown events ++ shown later := by
  rw [shown, List.map_append, String.join_append]
  rfl

section
variable {s : Start} {o : Options} {saved : Option String} {disk : Disk}

/-- What is told of as saved was to be saved. -/
theorem Start.Opens.saves {path : String} (h : s.Opens o (some path) disk) :
    o.saveConfig = true := by
  have hp := h.persisted
  cases hsave : o.saveConfig with
  | true => rfl
  | false =>
    rw [Options.persist, hsave] at hp
    cases hp

/-- A start that does not come to its console asks the platform for nothing. It fails, unless the
help or the version was asked for. -/
theorem run_unopened (h : ∀ o saved disk, ¬ s.Opens o saved disk) : (run s).wire = s.wire ∧
    ((run s).exit = 0 ↔
      Invocation.ofArgs s.args = .help ∨ Invocation.ofArgs s.args = .version) := by
  rw [run]
  cases hargs : Invocation.ofArgs s.args with
  | help => simp
  | version => simp
  | misuse => simp
  | console o =>
    simp only [runConsole]
    rcases hp : o.persist s.environment (o.settings s.environment s.disk) s.disk with
      ⟨e | saved, disk⟩
    · simp
    · exact absurd ⟨hargs, hp⟩ (h o saved disk)

/-- A run that comes to its console is a visit: to the files in the place for the credentials, or to
an empty memory where there is none. -/
theorem run_opened (h : s.Opens o saved disk) : run s = match s.place o with
    | some dir =>
      let last := (s.visit o).last (s.settings o).scheme (⟨disk, dir⟩ : FileStorage)
      ⟨0, notice saved ++ shown last.events, last.vault.storage.disk, last.wire⟩
    | none =>
      let last := (s.visit o).last (s.settings o).scheme (⟨.empty, disk⟩ : Beside Memory)
      ⟨0, notice saved ++ shown last.events, last.vault.storage.disk, last.wire⟩ := by
  have hopen : o.persist s.environment (o.settings s.environment s.disk) s.disk =
    (.ok saved, disk) := h.persisted
  rw [run, h.args]
  simp only [runConsole, hopen]
  rw [Start.place, Start.settings]
  cases if o.ephemeral then none
    else (o.settings s.environment s.disk).resolvedStateDir s.environment <;> rfl

theorem run_kept (h : s.Opens o saved disk) {dir : String} (hp : s.place o = some dir) :
    let last := (s.visit o).last (s.settings o).scheme (⟨disk, dir⟩ : FileStorage)
    run s = ⟨0, notice saved ++ shown last.events, last.vault.storage.disk, last.wire⟩ := by
  rw [run_opened h, hp]

/-- A visit to the memory leaves the disk as the console has found it. -/
theorem run_forgetful (h : s.Opens o saved disk) (hp : s.place o = none) :
    let last := (s.visit o).last (s.settings o).scheme (⟨.empty, disk⟩ : Beside Memory)
    run s = ⟨0, notice saved ++ shown last.events, disk, last.wire⟩ := by
  intro last
  have hdisk : last.vault.storage.disk = disk :=
    (s.visit o).last_endures _ _ (R := Desk.SameDisk)
  rw [run_opened h, hp]
  change (⟨0, _, last.vault.storage.disk, _⟩ : Outcome) = _
  rw [hdisk]

/-- What a run leaves in its place is the storage that its console has left. -/
theorem storage_left (h : s.Opens o saved disk) {dir : String} (hp : s.place o = some dir)
    (hs : disk.Sound) : (⟨(run s).disk, dir⟩ : FileStorage) =
      ((s.visit o).last (s.settings o).scheme (⟨disk, dir⟩ : FileStorage)).vault.storage := by
  rw [run_kept h hp]
  have hdir := (s.visit o).last_dir (s.settings o).scheme (s := ⟨disk, dir⟩) hs
  exact congrArg (FileStorage.mk _) hdir.symm

end

/-- A run that keeps no credentials leaves nothing on the disk but the settings that it was to save.
A later start that says nothing about settings, or the same, has them again. -/
theorem saved_settings_return {first second : Start} {o o' : Options} {path : String} {disk : Disk}
    (h : first.Opens o (some path) disk) (hp : first.place o = none) (hd : first.disk.Sound)
    (hdisk : second.disk = (run first).disk)
    (hpath : o'.settingsPath second.environment = some path)
    (hsame : Options.SameSettings .none o' ∨ Options.SameSettings o o') :
    second.settings o' = first.settings o := by
  obtain ⟨found, -, hfound, -, hlater⟩ := Options.settings_persisted hd h.saves h.persisted
  cases hfound
  rw [Start.settings, hdisk, run_forgetful h hp]
  exact hlater o' second.environment hpath hsame

/-- The session that a run has left is the one that the next start finds in the same place, and it
greets the user if there is one. -/
theorem session_outlives_run {first second : Start} {o o' : Options} {saved saved' : Option String}
    {disk : Disk} {dir : String} (h : first.Opens o saved disk) (hp : first.place o = some dir)
    (hs : FileStorage.Healthy credentialsKey ⟨disk, dir⟩)
    (h' : second.Opens o' saved' (run first).disk) (hp' : second.place o' = some dir)
    (hscheme : (second.settings o').scheme = (first.settings o).scheme) :
    let scheme := (first.settings o).scheme
    let left := ((first.visit o).last scheme (⟨disk, dir⟩ : FileStorage)).vault.session
    ((second.visit o').desk scheme (⟨(run first).disk, dir⟩ : FileStorage)).vault.session = left ∧
      ∃ restored rest, (left ≠ .anonymous → restored = true) ∧ (run second).output =
        notice saved' ++ shown ((Console.greeting restored left.user).map Event.printed) ++ rest := by
  intro scheme left
  obtain ⟨hsession, hrestored⟩ :=
    (first.visit o).session_found (second.visit o') scheme (s := (⟨disk, dir⟩ : FileStorage)) hs
  rw [← storage_left h hp hs.sound] at hsession hrestored
  refine ⟨hsession, Visit.restored scheme (⟨(run first).disk, dir⟩ : FileStorage), ?_⟩
  obtain ⟨told, htold⟩ :=
    (second.visit o').last_events scheme (⟨(run first).disk, dir⟩ : FileStorage)
  refine ⟨shown told, hrestored, ?_⟩
  rw [run_kept h' hp', hscheme]
  dsimp only
  rw [htold, hsession, shown_append, String.append_assoc]

/-- A user who registers is greeted when the console is started again. -/
example :
    let first : Start := {
      args := ["--state-dir", "state"]
      environment := ⟨none, none, none⟩
      input := Text.utf8 "register\nalice@example.com\n123456\npw\n"
      disk := .empty ["home"]
      wire := ⟨true, [.reply 200 (Text.utf8 "\x7b\x7d"), .reply 200 (Text.utf8
        "\x7b\"user_id\":\"alice\",\"token\":\"jwt\",\"secret_key\":\"sk_alice\"\x7d")], .hangUp, []⟩
      now := 0 }
    let second : Start := { first with input := [], disk := (run first).disk }
    (run second).output = shown ((Console.greeting true "alice").map Event.printed) ++
      "alice@console:~$ " := by decide +kernel

/-- What a start does, to the files in a directory, on its way from the loading of the session. -/
def Start.Did (s : Start) (dir : String) (deed : Deed) : Prop :=
  ∃ o p, Invocation.ofArgs s.args = .console o ∧ s.place o = some dir ∧
    Process.Reaches
      ⟨.start, (s.visit o).unloaded (s.settings o).scheme (⟨s.disk, dir⟩ : FileStorage)⟩ p ∧
    deed.Happened p.desk

/-- Starts one after another that keep their credentials in one directory and save no settings. Each
finds the disk that the one before has left. -/
inductive Starts (dir : String) : Disk → List Start → Disk → Prop where
  | done (disk : Disk) : Starts dir disk [] disk
  | start {s : Start} {o : Options} {starts : List Start} {last : Disk}
      (h : s.Opens o none s.disk) (hp : s.place o = some dir)
      (later : Starts dir (run s).disk starts last) : Starts dir s.disk (s :: starts) last

/-- However often the console is started, whoever logs in and whatever the platform answers, the
secret that is stored stands with the user that it was issued to, or for whom it was entered after a
login had been granted. -/
theorem Starts.keep_owners {dir : String} {disk last : Disk} {starts : List Start}
    (h : Starts dir disk starts last) (hs : FileStorage.Healthy credentialsKey ⟨disk, dir⟩)
    {deeds : List (Start × Deed)}
    (hstored : StoredCredited deeds (Reliable.content (⟨disk, dir⟩ : FileStorage))) :
    FileStorage.Healthy credentialsKey ⟨last, dir⟩ ∧ ∃ done : List (Start × Deed),
      StoredCredited (deeds ++ done) (Reliable.content (⟨last, dir⟩ : FileStorage)) ∧
      ∀ e ∈ done, e.1 ∈ starts ∧ e.1.Did dir e.2 := by
  induction h generalizing deeds with
  | done disk => exact ⟨hs, [], by rwa [List.append_nil], List.forall_mem_nil _⟩
  | @start s o starts last h hp _ ih =>
    let desk := (s.visit o).unloaded (s.settings o).scheme (⟨s.disk, dir⟩ : FileStorage)
    obtain ⟨did, -, hhealthy, hkept, hdid⟩ :=
      Console.run_keeps_owners desk hs nofun hstored s
    have hleft := storage_left h hp hs.sound
    obtain ⟨hlast, done, hcredited, hdone⟩ := ih (hleft ▸ hhealthy) (hleft ▸ hkept)
    refine ⟨hlast, did.map (Prod.mk s) ++ done, ?_, fun e he => ?_⟩
    · rwa [← List.append_assoc]
    · rcases List.mem_append.mp he with he | he
      · obtain ⟨deed, hd, rfl⟩ := List.mem_map.mp he
        obtain ⟨p, hreach, hhappened⟩ := hdid deed hd
        exact ⟨List.mem_cons_self, o, p, h.args, hp, hreach, hhappened⟩
      · exact ⟨List.mem_cons_of_mem s (hdone e he).1, (hdone e he).2⟩

end Program
end SignedConsole
