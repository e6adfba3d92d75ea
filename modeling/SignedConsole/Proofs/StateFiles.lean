import SignedConsole.Proofs.AccountOutcomes
import SignedConsole.Proofs.FileCells
import SignedConsole.Proofs.Rounds

namespace SignedConsole

namespace Disk

/-- What has directories wherever another disk has some leads to the same places. -/
structure KeepsDirectories (d d' : Disk) : Prop where
  workDir : d'.workDir = d.workDir
  directory : ∀ p, d.node? p = some .directory → d'.node? p = some .directory

theorem Grown.keeps {d d' : Disk} (h : Grown d d') : KeepsDirectories d d' :=
  ⟨h.workDir, h.directory⟩

theorem SameDirectories.keeps {d d' : Disk} (h : SameDirectories d d') : KeepsDirectories d d' :=
  ⟨h.workDir, fun p => (h.node p).mpr⟩

theorem isDirectory_iff {d : Disk} {path : String} : d.isDirectory path = true ↔
    ∃ p, d.locate path = .ok p ∧ d.node? p = some .directory := by
  unfold isDirectory find
  cases d.locate path with
  | error e => simp [bind, Except.bind]
  | ok p =>
    simp only [bind, Except.bind, Except.ok.injEq, exists_eq_left']
    cases d.node? p with
    | none => simp [throw, throwThe, MonadExceptOf.throw]
    | some n => cases n <;> simp [pure, Except.pure]

theorem KeepsDirectories.locate {d d' : Disk} (h : KeepsDirectories d d') {path : String}
    {p : Place} (hp : d.locate path = .ok p) : d'.locate path = .ok p :=
  locate_keeps h.workDir h.directory hp

theorem KeepsDirectories.isDirectory {d d' : Disk} (h : KeepsDirectories d d') {path : String}
    (hp : d.isDirectory path = true) : d'.isDirectory path = true := by
  obtain ⟨p, hl, hn⟩ := isDirectory_iff.mp hp
  exact isDirectory_iff.mpr ⟨p, h.locate hl, h.directory p hn⟩

end Disk

namespace FileStorage

/-- Where the credentials are kept. -/
def recordPath (dir : String) : String := path dir credentialsKey

/-- Where they are written first. -/
def recordDraft (dir : String) : String := draftPath dir credentialsKey

theorem record_fits : Disk.Fits (credentialsKey ++ ".json") :=
  ⟨place_name isKey_credentialsKey, fun _ => by simp +decide [Disk.onward?]⟩

theorem draft_fits : Disk.Fits (credentialsKey ++ ".json.tmp") :=
  ⟨draft_name isKey_credentialsKey, fun _ => by simp +decide [Disk.onward?]⟩

/-- Where a draft can be written there is a place for the credentials, and it is another one. -/
theorem record_beside_draft {dir : String} {d : Disk} {p : Place}
    (h : d.locate (recordDraft dir) = .ok p) :
    ∃ q, d.locate (recordPath dir) = .ok q ∧ q ≠ p := by
  have hname : credentialsKey ++ ".json.tmp" = credentialsKey ++ ".json" ++ ".tmp" := by decide
  have hending : recordDraft dir = recordPath dir ++ ".tmp" := by
    rw [recordDraft, draftPath, hname]
    exact Path.join_ending dir record_fits.1 (hname ▸ draft_fits.1)
  have hne : (recordPath dir).toList ≠ [] := by
    obtain ⟨front, hf⟩ := Path.join_ends dir record_fits.1
    rw [recordPath, path, hf]
    exact List.append_ne_nil_of_right_ne_nil _ record_fits.1.1
  have hspeak : Disk.Speakable (recordPath dir) :=
    (Disk.locate_ok_iff.mp h).1.front (by rw [hending, String.toList_append]) hne
  obtain ⟨here, rfl, hq⟩ := Disk.locate_beside draft_fits record_fits hspeak h
  refine ⟨_, hq, ?_⟩
  intro heq
  have hnames := List.append_cancel_left heq
  revert hnames
  decide

section
variable (dir : String) (start now : Disk)

/-- A file that is as it was. -/
structure Untouched (p : Place) (id : Nat) : Prop where
  node : start.node? p = some (.file id)
  file : now.files[id]? = start.files[id]?

/-- The place of a draft that could not be moved, because there is a directory in the way. -/
structure Stuck (p : Place) : Prop where
  draft : now.locate (recordDraft dir) = .ok p
  blocked : now.isDirectory (recordPath dir) = true

/-- Another name of a draft that was left over from an earlier run. -/
structure Linked (p : Place) : Prop where
  leftover : ∃ q id, q ≠ p ∧ now.locate (recordDraft dir) = .ok q ∧
    start.node? q = some (.file id) ∧ start.node? p = some (.file id)

/-- How a file comes to have a name. -/
inductive Accounted (p : Place) (id : Nat) : Prop where
  | untouched (h : Untouched start now p id)
  | record (h : now.locate (recordPath dir) = .ok p)
  | stuck (h : Stuck dir now p)
  | linked (h : Linked dir start now p)

/-- A disk since a start, as far as credentials in a directory may have changed it. The files at
loose places are not accounted for. -/
structure Tidy (loose : Place → Prop) : Prop where
  sound : now.Sound
  longer : start.files.length ≤ now.files.length
  /-- Only files from before have several names. -/
  single : ∀ p q id, now.node? p = some (.file id) → now.node? q = some (.file id) → p ≠ q →
    id < start.files.length
  /-- Only the place of the credentials gets a file from before. -/
  named : ∀ p id, now.node? p = some (.file id) → id < start.files.length →
    start.node? p = some (.file id) ∨ now.locate (recordPath dir) = .ok p
  placed : ∀ p id, now.node? p = some (.file id) → ¬ loose p → Accounted dir start now p id

end

/-- All files are accounted for. -/
def nowhere : Place → Prop := fun _ => False

variable {dir : String} {start now later : Disk} {loose : Place → Prop}

theorem Accounted.carry {p : Place} {id : Nat} (h : Accounted dir start now p id)
    (hk : now.KeepsDirectories later) (hf : later.files[id]? = now.files[id]?) :
    Accounted dir start later p id := by
  cases h with
  | untouched h => exact .untouched ⟨h.node, hf.trans h.file⟩
  | record h => exact .record (hk.locate h)
  | stuck h => exact .stuck ⟨hk.locate h.draft, hk.isDirectory h.blocked⟩
  | linked h =>
    obtain ⟨q, id, hne, hl, hq, hp⟩ := h.leftover
    exact .linked ⟨q, id, hne, hk.locate hl, hq, hp⟩

theorem Tidy.refl (dir : String) (h : start.Sound) : Tidy dir start start nowhere where
  sound := h
  longer := Nat.le_refl _
  single _ _ _ hp _ _ := h.file hp
  named _ _ hp _ := Or.inl hp
  placed _ _ hp _ := .untouched ⟨hp, rfl⟩

/-- Nothing that is accounted for changes where names keep their files, or lose them. -/
theorem Tidy.carry (h : Tidy dir start now loose) (hs : later.Sound)
    (hk : now.KeepsDirectories later) (hf : later.files = now.files)
    (hn : ∀ p id, later.node? p = some (.file id) → now.node? p = some (.file id)) :
    Tidy dir start later loose where
  sound := hs
  longer := hf ▸ h.longer
  single p q id hp hq := h.single p q id (hn p id hp) (hn q id hq)
  named p id hp hid := (h.named p id (hn p id hp) hid).imp_right hk.locate
  placed p id hp hl := (h.placed p id (hn p id hp) hl).carry hk (by rw [hf])

theorem Tidy.grown (h : Tidy dir start now loose) (hg : now.Grown later) :
    Tidy dir start later loose :=
  h.carry (hg.sound h.sound) hg.keeps hg.files fun p id => (hg.file p id).mp

/-- While a draft is written its place is loose, and its other names are accounted for. -/
theorem Tidy.written {p : Place} {id : Nat} {files : List File} (h : Tidy dir start now loose)
    (hloose : ∀ r, loose r → r = p) (hl : now.locate (recordDraft dir) = .ok p)
    (hn : now.node? p = some (.file id)) (hlen : files.length = now.files.length)
    (hf : ∀ i, i ≠ id → files[i]? = now.files[i]?) :
    Tidy dir start { now with files } (· = p) := by
  have hk : now.KeepsDirectories { now with files } :=
    ((Disk.SameDirectories.refl now).files files).keeps
  refine ⟨fun e he i hi => hlen ▸ h.sound e he i hi, hlen ▸ h.longer, h.single,
    fun r i hr hi => (h.named r i hr hi).imp_right hk.locate, fun r i hr hne => ?_⟩
  by_cases hi : i = id
  · subst hi
    have hold := h.single r p i hr hn hne
    obtain ⟨q, hq, hqp⟩ := record_beside_draft hl
    rcases h.named p i hn hold with hp | hp
    · rcases h.named r i hr hold with hr | hr
      · exact .linked ⟨p, i, Ne.symm hne, hk.locate hl, hp, hr⟩
      · exact .record (hk.locate hr)
    · cases hq.symm.trans hp
      exact absurd rfl hqp
  · exact (h.placed r i hr fun hl => hne (hloose r hl)).carry hk (hf i hi)

/-- A file that is new has one name, and that is loose. -/
theorem Tidy.created {p : Place} (h : Tidy dir start now nowhere) (hn : now.node? p = none)
    (f : File) : Tidy dir start
      (({ now with files := now.files ++ [f] } : Disk).put p (.file now.files.length)) (· = p) := by
  let longer : Disk := { now with files := now.files ++ [f] }
  have hnode : now.node? p ≠ some .directory := by
    rw [hn]
    nofun
  have hsame : now.SameDirectories (longer.put p (.file now.files.length)) :=
    ((Disk.SameDirectories.refl now).files _).trans (.put _ hnode)
  have hp : (longer.put p (.file now.files.length)).node? p = some (.file now.files.length) :=
    Disk.node_put_self _ (Disk.ne_root hnode)
  have hother : ∀ r, r ≠ p → (longer.put p (.file now.files.length)).node? r = now.node? r :=
    fun r hr => Disk.node_put_ne _ hr
  refine ⟨?_, ?_, ?_, ?_, ?_⟩
  · refine Disk.Sound.put (d := longer) ?_ ?_
    · intro e he id hid
      have := h.sound e he id hid
      simp only [longer, List.length_append]
      omega
    · rintro id ⟨⟩
      simp [longer]
  · have := h.longer
    simp only [Disk.put, List.length_append]
    omega
  · intro r q id hr hq hne
    by_cases hrp : r = p
    · subst hrp
      cases hp.symm.trans hr
      rw [hother q (Ne.symm hne)] at hq
      have hlt := h.sound.file hq
      omega
    · rw [hother r hrp] at hr
      by_cases hqp : q = p
      · subst hqp
        cases hp.symm.trans hq
        have hlt := h.sound.file hr
        omega
      · rw [hother q hqp] at hq
        exact h.single r q id hr hq hne
  · intro r id hr hid
    by_cases hrp : r = p
    · subst hrp
      cases hp.symm.trans hr
      exact absurd hid (Nat.not_lt_of_le h.longer)
    · rw [hother r hrp] at hr
      exact (h.named r id hr hid).imp_right hsame.keeps.locate
  · intro r id hr hrp
    rw [hother r hrp] at hr
    refine (h.placed r id hr not_false).carry hsame.keeps ?_
    exact List.getElem?_append_left (h.sound.file hr)

/-- A draft that is moved into its place is accounted for there, and one that cannot be moved is
stuck. -/
theorem Tidy.moved {p : Place} {id : Nat} (h : Tidy dir start now (· = p))
    (hl : now.locate (recordDraft dir) = .ok p) (hn : now.node? p = some (.file id)) :
    Tidy dir start (Disk.run (Disk.rename (recordDraft dir) (recordPath dir)) now).2 nowhere := by
  obtain ⟨q, hq, hqp⟩ := record_beside_draft hl
  by_cases hqn : now.node? q = some .directory
  · have hrun : (Disk.run (Disk.rename (recordDraft dir) (recordPath dir)) now).2 = now := by
      simp only [Disk.run_rename, hl, hq, hn, hqn]
    rw [hrun]
    refine ⟨h.sound, h.longer, h.single, h.named, fun r i hr _ => ?_⟩
    by_cases hrp : r = p
    · subst hrp
      exact .stuck ⟨hl, Disk.isDirectory_iff.mpr ⟨q, hq, hqn⟩⟩
    · exact h.placed r i hr hrp
  · rw [Disk.rename_ok_iff.mpr ⟨p, q, .file id, hl, hq, hn, hqn, rfl⟩]
    dsimp only
    have hpn : now.node? p ≠ some .directory := by
      rw [hn]
      nofun
    have hdrop : now.SameDirectories (now.drop p) := .drop hpn
    have hqd : (now.drop p).node? q ≠ some .directory := fun hd => hqn ((hdrop.node q).mp hd)
    have hsame : now.SameDirectories ((now.drop p).put q (.file id)) := hdrop.trans (.put id hqd)
    have hat : ((now.drop p).put q (.file id)).node? q = some (.file id) :=
      Disk.node_put_self _ (Disk.ne_root hqd)
    have hother : ∀ r i, r ≠ q → ((now.drop p).put q (.file id)).node? r = some (.file i) →
        r ≠ p ∧ now.node? r = some (.file i) := by
      intro r i hrq hr
      rw [Disk.node_put_ne _ hrq] at hr
      by_cases hrp : r = p
      · rw [hrp, Disk.node_drop_self (Disk.ne_root hpn)] at hr
        cases hr
      · exact ⟨hrp, (Disk.node_drop_ne hrp) ▸ hr⟩
    refine ⟨(h.sound.drop p).put (by rintro _ ⟨⟩; exact h.sound.file hn), h.longer, ?_, ?_, ?_⟩
    · intro r t i hr ht hne
      by_cases hrq : r = q
      · subst hrq
        cases hat.symm.trans hr
        obtain ⟨htp, ht⟩ := hother t _ (Ne.symm hne) ht
        exact h.single t p _ ht hn htp
      · obtain ⟨hrp, hnow⟩ := hother r i hrq hr
        by_cases htq : t = q
        · subst htq
          cases hat.symm.trans ht
          exact h.single r p _ hnow hn hrp
        · exact h.single r t i hnow (hother t i htq ht).2 hne
    · intro r i hr hi
      by_cases hrq : r = q
      · rw [hrq]
        exact Or.inr (hsame.keeps.locate hq)
      · exact (h.named r i (hother r i hrq hr).2 hi).imp_right hsame.keeps.locate
    · intro r i hr _
      by_cases hrq : r = q
      · rw [hrq]
        exact .record (hsame.keeps.locate hq)
      · obtain ⟨hrp, hr⟩ := hother r i hrq hr
        exact (h.placed r i hr hrp).carry hsame.keeps rfl

/-- A draft that has been opened lies at a place of its own, which is loose until it is moved. -/
theorem Tidy.drafted (h : Tidy dir start now nowhere) {handle : Handle}
    (hc : Disk.run (Disk.create (recordDraft dir) ownerOnly) now = (.ok handle, later)) :
    ∃ p, later.locate (recordDraft dir) = .ok p ∧ later.node? p = some (.file handle.file) ∧
      Tidy dir start later (· = p) := by
  obtain ⟨hu, hslash⟩ := draft_unslashed dir isKey_credentialsKey
  rw [← recordDraft] at hu hslash
  obtain ⟨p, hl, hpn⟩ := Disk.create_ok hu hc
  obtain ⟨id, mode, d', hc', hsame, _, hn', _⟩ :=
    Disk.create_ready ownerOnly hu hslash h.sound hl hpn
  cases hc.symm.trans hc'
  refine ⟨p, hsame.locate hl, hn', ?_⟩
  rw [Disk.run_create, hu, hl] at hc
  simp only [hslash, Bool.false_eq_true, ↓reduceIte] at hc
  cases hn : now.node? p with
  | none =>
    simp only [hn] at hc
    rw [← (Prod.mk.inj hc).2]
    exact h.created hn _
  | some n =>
    cases n with
    | directory => exact absurd hn hpn
    | file old =>
      simp only [hn] at hc
      rw [← (Prod.mk.inj hc).2]
      refine h.written (fun _ hr => hr.elim) hl hn (List.length_modify ..) fun i hi => ?_
      exact List.getElem?_modify_ne _ _ (Ne.symm hi)

/-- However far a saving gets, the directory is tidy. -/
theorem Tidy.saved (h : Tidy dir start now nowhere) (value : String) : Tidy dir start
    (Disk.run (runSteps (writeSteps dir credentialsKey value)) now).2 nowhere := by
  have hmade := h.grown (Disk.makeDirectories_grown dir now)
  rw [run_writeSteps, ← recordDraft, ← recordPath]
  generalize Disk.run (Disk.makeDirectories dir) now = r at hmade ⊢
  rcases r with ⟨e | ⟨⟩, made⟩
  · exact hmade
  dsimp only at hmade ⊢
  generalize hc : Disk.run (Disk.create (recordDraft dir) ownerOnly) made = r
  rcases r with ⟨e | handle, drafted⟩
  · rw [← Disk.create_error hc] at hmade
    exact hmade
  · obtain ⟨p, hl, hn, hdrafted⟩ := hmade.drafted hc
    refine (hdrafted.written (fun _ hr => hr) hl hn ?_ ?_).moved ?_ hn
    · rw [List.length_modify, List.length_modify]
    · intro i hi
      rw [List.getElem?_modify_ne _ _ (Ne.symm hi), List.getElem?_modify_ne _ _ (Ne.symm hi)]
    · exact ((Disk.SameDirectories.refl drafted).files _).locate hl

/-- After a removal no file is in the place of the credentials. -/
theorem Tidy.removed {s : FileStorage} (h : Tidy s.dir start s.disk nowhere) :
    Tidy s.dir start (s.erase credentialsKey).2.disk nowhere ∧
      ∀ p id, (s.erase credentialsKey).2.disk.node? p = some (.file id) →
        (s.erase credentialsKey).2.disk.locate (recordPath s.dir) ≠ .ok p := by
  rcases erase_cases isKey_credentialsKey s with ⟨hsame, hnone⟩ | ⟨q, id, hl, hn, hdrop⟩
  · rw [hsame]
    exact ⟨h, fun p id hp hl => hnone p id hl hp⟩
  · rw [hdrop]
    have hfile : s.disk.node? q ≠ some .directory := by
      rw [hn]
      nofun
    have hdirs : s.disk.SameDirectories (s.disk.drop q) := .drop hfile
    have hgone : (s.disk.drop q).node? q = none := Disk.node_drop_self (Disk.ne_root hfile)
    refine ⟨h.carry (h.sound.drop q) hdirs.keeps rfl fun p i hp => ?_, fun p i hp hat => ?_⟩
    · by_cases hpq : p = q
      · rw [hpq, hgone] at hp
        cases hp
      · rwa [Disk.node_drop_ne hpq] at hp
    · have hq := (hdirs.keeps.locate hl).symm.trans hat
      cases hq
      rw [hgone] at hp
      cases hp

/-- A storage in the directory of another, all whose files are accounted for since. -/
structure Kept (start s : FileStorage) : Prop where
  dir : s.dir = start.dir
  tidy : Tidy start.dir start.disk s.disk nowhere

theorem Kept.set {start s : FileStorage} (h : Kept start s) (value : String) :
    Kept start (s.write credentialsKey value).2 := by
  rw [write_eq_runSteps isKey_credentialsKey]
  exact ⟨h.dir, h.dir ▸ h.tidy.saved value⟩

theorem Kept.remove {start s : FileStorage} (h : Kept start s) :
    Kept start (s.erase credentialsKey).2 ∧
      ∀ p id, (s.erase credentialsKey).2.disk.node? p = some (.file id) →
        Untouched start.disk (s.erase credentialsKey).2.disk p id ∨
        Stuck start.dir (s.erase credentialsKey).2.disk p ∨
        Linked start.dir start.disk (s.erase credentialsKey).2.disk p := by
  have hdir : (s.erase credentialsKey).2.dir = s.dir := by rw [erase_disk isKey_credentialsKey]
  obtain ⟨htidy, hnone⟩ := Tidy.removed (h.dir ▸ h.tidy)
  rw [h.dir] at htidy hnone
  refine ⟨⟨hdir.trans h.dir, htidy⟩, fun p id hp => ?_⟩
  cases htidy.placed p id hp not_false with
  | untouched h => exact Or.inl h
  | record h => exact absurd h (hnone p id hp)
  | stuck h => exact Or.inr (Or.inl h)
  | linked h => exact Or.inr (Or.inr h)

end FileStorage

/-- What is accounted for since a start stays so. -/
def Desk.StaysKept (start : FileStorage) (d d' : Desk FileStorage) : Prop :=
  FileStorage.Kept start d.vault.storage → FileStorage.Kept start d'.vault.storage

instance (start : FileStorage) : Enduring (Desk.StaysKept start) where
  refl _ h := h
  trans h h' hk := h' (h hk)
  recorded _ _ _ h := h
  read _ _ _ _ _ _ h := h
  called _ _ h := h
  probed _ h := h
  sought d userId h := by
    rw [Vault.storedSecret_same]
    exact h
  saved _ _ _ _ h := h.set _
  forgotten _ h := h.remove.1

theorem Round.Runs.logged_out {r : Round FileStorage} {next : Next} (h : r.Runs next)
    (hc : r.command = .logout) : r.after.vault.storage =
      (r.heard.vault.storage.erase credentialsKey).2 := by
  have hran := h.ran
  rw [hc] at hran
  have hafter : (r.heard.perform (Console.execute .logout)).2 = r.after := congrArg Prod.snd hran
  rw [← hafter]
  rfl

open FileStorage in
/-- After each logout every file is as it was before the run, wherever it lies. Only the draft of the
credentials may be left, if a directory has been in their place, and what it holds may be left under
another name that the draft of an earlier run had. -/
theorem Console.logout_leaves_files (d : Desk FileStorage) (hs : d.vault.storage.disk.Sound)
    (restored : Bool) :
    let start := d.vault.storage
    ∃ rounds last, d.perform (run restored) = ((), last) ∧
      Course (d.greeted restored) rounds last ∧
      ∀ r ∈ rounds, Command.ofLine (Text.trim r.line) = .logout →
        let now := r.after.vault.storage.disk
        ∀ p f, now.file? p = some f → start.disk.file? p = some f ∨
          (now.locate (draftPath start.dir credentialsKey) = .ok p ∧
            now.isDirectory (path start.dir credentialsKey) = true) ∨
          ∃ q id, q ≠ p ∧ now.locate (draftPath start.dir credentialsKey) = .ok q ∧
            start.disk.node? q = some (.file id) ∧ start.disk.node? p = some (.file id) := by
  intro start
  obtain ⟨rounds, hcourse⟩ := Course.of_run d restored
  refine ⟨rounds, _, rfl, hcourse, fun r hr hc => ?_⟩
  obtain ⟨next, hruns⟩ := hcourse.runs hr
  have hstart : Kept start (d.greeted restored).vault.storage := ⟨rfl, .refl start.dir hs⟩
  have hbefore := hcourse.endures (R := Desk.StaysKept start) |>.2 r hr hstart
  have hheard := (hruns.endures (R := Desk.StaysKept start)).1 hbefore
  rw [hruns.logged_out hc]
  intro now p f hf
  obtain ⟨id, hn, hfile⟩ := Disk.file_node hf
  rcases hheard.remove.2 p id hn with hu | hstuck | hlinked
  · left
    rw [Disk.file?, hu.node]
    exact hu.file.symm.trans hfile
  · exact Or.inr (Or.inl ⟨hstuck.draft, hstuck.blocked⟩)
  · exact Or.inr (Or.inr hlinked.leftover)

/-- A new user's desk: she registers, and logs out. -/
def Desk.registering (disk : Disk) : Desk FileStorage :=
  ⟨.of "http://api.test" .hmac .failOpen, .closed ⟨disk, "state"⟩ .hmac,
    ⟨true, [.reply 200 (Text.utf8 "\x7b\x7d"), .reply 200 (Text.utf8
      "\x7b\"user_id\":\"alice\",\"token\":\"jwt\",\"secret_key\":\"sk_alice\"\x7d")], .hangUp, []⟩,
    0, ["register", "alice@example.com", "123456", "pw", "logout"], []⟩

open FileStorage in
/-- On a new disk nothing is left but a draft that is stuck, and in the end not even that. -/
theorem Console.new_directory_is_left_empty :
    let d := Desk.registering (.empty ["home"])
    d.vault.storage.disk.Sound ∧ (d.perform (run false)).2.vault.storage.disk.placed = [] ∧
    ∃ rounds last, d.perform (run false) = ((), last) ∧ Course (d.greeted false) rounds last ∧
      ∀ r ∈ rounds, Command.ofLine (Text.trim r.line) = .logout →
        ∀ p f, r.after.vault.storage.disk.file? p = some f →
          r.after.vault.storage.disk.locate (draftPath "state" credentialsKey) = .ok p ∧
          r.after.vault.storage.disk.isDirectory (path "state" credentialsKey) = true := by
  have hsound : (Desk.registering (.empty ["home"])).vault.storage.disk.Sound :=
    Disk.empty_sound ["home"]
  have hnone : ∀ p id, (Disk.empty ["home"]).node? p ≠ some (.file id) := by
    intro p id hp
    exact absurd (hsound.file hp) (Nat.not_lt_zero id)
  obtain ⟨rounds, last, hrun, hcourse, hfiles⟩ := logout_leaves_files _ hsound false
  refine ⟨hsound, by decide +kernel, rounds, last, hrun, hcourse, fun r hr hc p f hf => ?_⟩
  rcases hfiles r hr hc p f hf with h | h | ⟨q, id, _, _, h, _⟩
  · obtain ⟨id, hn, _⟩ := Disk.file_node h
    exact absurd hn (hnone p id)
  · exact h
  · exact absurd h (hnone q id)

/-- Where a directory has the place of the credentials, a logout says that they are cleared while the
draft keeps them, with the secret. -/
theorem Console.blocked_record_keeps_secret :
    let disk := (Disk.run (Disk.makeDirectories "state/console_credentials.json")
      (.empty ["home"])).2
    let last := ((Desk.registering disk).perform (run false)).2
    last.vault.session.isAuthenticated = false ∧
    .printed (.info "Credentials cleared from local storage") ∈ last.events ∧
    last.vault.storage.disk.file? ["home", "state", "console_credentials.json.tmp"] =
      some ⟨FileStorage.ownerOnly, Text.utf8
        ((⟨"alice", "jwt", some ⟨"sk_alice"⟩⟩ : Record).print .hmac)⟩ := by
  decide +kernel

end SignedConsole
