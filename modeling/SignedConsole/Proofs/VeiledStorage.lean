import SignedConsole.Proofs.FileCells
import SignedConsole.Proofs.PlainPrograms
import SignedConsole.Proofs.StorageCell

namespace SignedConsole

/-- Secrets of which both are empty or neither is. -/
def Secret.Alike (s t : Secret) : Prop := t.isEmpty = s.isEmpty

/-- Records that differ in the text of their secrets at most. -/
structure Record.Alike (r q : Record) : Prop where
  userId : q.userId = r.userId
  token : q.token = r.token
  secret : Option.Rel Secret.Alike r.secret q.secret

namespace Record

theorem Alike.refl (r : Record) : r.Alike r := by
  refine ⟨rfl, rfl, ?_⟩
  cases r.secret with
  | none => exact .none
  | some s => exact .some rfl

/-- Stored texts that are read as records alike, or both as none. -/
def TextsAlike (x y : Option String) : Prop :=
  Option.Rel Alike (ofStored? .hmac x) (ofStored? .hmac y)

theorem TextsAlike.refl (x : Option String) : TextsAlike x x := by
  unfold TextsAlike
  cases ofStored? .hmac x with
  | none => exact .none
  | some r => exact .some (.refl r)

/-- Records that are printed with one secret or another are alike when they are read. -/
theorem prints_alike {s t : Secret} (userId token : String) (h : s.Alike t) :
    TextsAlike (some ((⟨userId, token, some s⟩ : Record).print .hmac))
      (some ((⟨userId, token, some t⟩ : Record).print .hmac)) := by
  unfold TextsAlike
  rw [ofStored_print, ofStored_print]
  refine .some ⟨rfl, rfl, ?_⟩
  simp only [readUnder, ↓reduceIte, Option.filter_some]
  rw [h]
  split
  · exact .some h
  · exact .none

end Record

/-- Storage in which only the secret can tell two states apart that are alike. -/
class Storage.Veils (σ : Type) [Storage σ] where
  Alike : σ → σ → Prop
  refl (s : σ) : Alike s s
  got {s t : σ} (h : Alike s t) :
    Record.TextsAlike (Storage.get credentialsKey s).1.toOption.join
        (Storage.get credentialsKey t).1.toOption.join ∧
      Alike (Storage.get credentialsKey s).2 (Storage.get credentialsKey t).2
  written {s t : σ} {x y : String} (h : Alike s t) (ht : Record.TextsAlike (some x) (some y)) :
    Alike (Storage.set credentialsKey x s).2 (Storage.set credentialsKey y t).2
  removed {s t : σ} (h : Alike s t) :
    Alike (Storage.remove credentialsKey s).2 (Storage.remove credentialsKey t).2

open Storage (Veils)

instance : Veils Memory where
  Alike m n := Record.TextsAlike (m.get? credentialsKey) (n.get? credentialsKey)
  refl m := .refl (m.get? credentialsKey)
  got h := ⟨h, h⟩
  written _ ht := by
    change Record.TextsAlike ((Memory.insert _ _ _).get? _) ((Memory.insert _ _ _).get? _)
    rw [Memory.get_insert, Memory.get_insert]
    exact ht
  removed _ := by
    change Record.TextsAlike ((Memory.erase _ _).get? _) ((Memory.erase _ _).get? _)
    rw [Memory.get_erase, Memory.get_erase]
    exact .refl none

/-- Both refuse the same operations. -/
structure Refusing.Alike [Storage σ] [Veils σ] (s t : Refusing σ) : Prop where
  inner : Veils.Alike s.inner t.inner
  get : t.get = s.get
  set : t.set = s.set
  remove : t.remove = s.remove

instance [Storage σ] [Veils σ] : Veils (Refusing σ) where
  Alike := Refusing.Alike
  refl s := ⟨Veils.refl s.inner, rfl, rfl, rfl⟩
  got := by
    rintro ⟨s, _, _, _⟩ ⟨t, off, _, _⟩ ⟨h, rfl, rfl, rfl⟩
    cases off with
    | true => exact ⟨.refl none, h, rfl, rfl, rfl⟩
    | false => exact ⟨(Veils.got h).1, (Veils.got h).2, rfl, rfl, rfl⟩
  written := by
    rintro ⟨s, _, _, _⟩ ⟨t, _, off, _⟩ x y ⟨h, rfl, rfl, rfl⟩ ht
    cases off with
    | true => exact ⟨h, rfl, rfl, rfl⟩
    | false => exact ⟨Veils.written h ht, rfl, rfl, rfl⟩
  removed := by
    rintro ⟨s, _, _, _⟩ ⟨t, _, _, off⟩ ⟨h, rfl, rfl, rfl⟩
    cases off with
    | true => exact ⟨h, rfl, rfl, rfl⟩
    | false => exact ⟨Veils.removed h, rfl, rfl, rfl⟩

instance [Storage σ] [Veils σ] : Veils (Beside σ) where
  Alike b c := Veils.Alike b.storage c.storage
  refl b := Veils.refl b.storage
  got h := Veils.got h
  written h ht := Veils.written h ht
  removed h := Veils.removed h

/-- Disks with the same names for the same files, which are read as records alike. -/
structure Disk.Alike (d e : Disk) : Prop where
  entries : e.entries = d.entries
  workDir : e.workDir = d.workDir
  length : e.files.length = d.files.length
  files : ∀ (id : Nat) (f g : File), d.files[id]? = some f → e.files[id]? = some g →
    Record.TextsAlike (Text.ofUtf8? f.content) (Text.ofUtf8? g.content)

/-- Actions that cannot tell disks apart that are alike. -/
def DiskAction.Blind (act : DiskAction α) : Prop :=
  ∀ d e : Disk, d.Alike e → (Disk.run act e).1 = (Disk.run act d).1 ∧
    (Disk.run act d).2.Alike (Disk.run act e).2

namespace Disk

theorem Alike.refl (d : Disk) : d.Alike d := by
  refine ⟨rfl, rfl, rfl, fun id f g hf hg => ?_⟩
  cases hf.symm.trans hg
  exact .refl _

variable {d e : Disk}

theorem Alike.node (h : d.Alike e) (p : Place) : e.node? p = d.node? p := by
  simp only [node?, h.entries]

theorem Alike.walk (h : d.Alike e) (here : Place) (parts : List String) :
    e.walk here parts = d.walk here parts := by
  induction parts generalizing here with
  | nil => rfl
  | cons part parts ih => simp only [Disk.walk, enter, h.node, ih]

theorem Alike.locate (h : d.Alike e) (path : String) : e.locate path = d.locate path := by
  simp only [Disk.locate, h.workDir, h.walk]

theorem Alike.find (h : d.Alike e) (path : String) : e.find path = d.find path := by
  simp only [Disk.find, h.locate, h.node]

theorem Alike.put (h : d.Alike e) (p : Place) (n : Node) : (d.put p n).Alike (e.put p n) :=
  ⟨by simp only [Disk.put, h.entries], h.workDir, h.length, h.files⟩

theorem Alike.drop (h : d.Alike e) (p : Place) : (d.drop p).Alike (e.drop p) :=
  ⟨by simp only [Disk.drop, h.entries], h.workDir, h.length, h.files⟩

/-- Files that are changed at one number stay alike if those that it leads to do. -/
theorem Alike.modify (h : d.Alike e) (id : Nat) {f g : File → File}
    (hfg : ∀ a b, d.files[id]? = some a → e.files[id]? = some b →
      Record.TextsAlike (Text.ofUtf8? (f a).content) (Text.ofUtf8? (g b).content)) :
    ({ d with files := d.files.modify id f } : Disk).Alike
      { e with files := e.files.modify id g } := by
  refine ⟨h.entries, h.workDir, by simp [h.length], fun i a b ha hb => ?_⟩
  by_cases hi : i = id
  · subst hi
    simp only [List.getElem?_modify_eq, Option.map_eq_map, Option.map_eq_some_iff] at ha hb
    obtain ⟨a, ha, rfl⟩ := ha
    obtain ⟨b, hb, rfl⟩ := hb
    exact hfg a b ha hb
  · rw [List.getElem?_modify_ne _ _ (Ne.symm hi)] at ha hb
    exact h.files i a b ha hb

theorem Alike.append (h : d.Alike e) (f : File) :
    ({ d with files := d.files ++ [f] } : Disk).Alike { e with files := e.files ++ [f] } := by
  refine ⟨h.entries, h.workDir, by simp [h.length], fun i a b ha hb => ?_⟩
  by_cases hi : i < d.files.length
  · rw [List.getElem?_append_left hi] at ha
    rw [List.getElem?_append_left (h.length ▸ hi)] at hb
    exact h.files i a b ha hb
  · rw [List.getElem?_append_right (Nat.le_of_not_lt hi)] at ha
    rw [List.getElem?_append_right (h.length ▸ Nat.le_of_not_lt hi), h.length, ha] at hb
    cases hb
    exact .refl _

theorem blind_pure (a : α) : DiskAction.Blind (pure a) := fun _ _ h => ⟨rfl, h⟩

theorem blind_bind {act : DiskAction α} {next : α → DiskAction β} (h : act.Blind)
    (hn : ∀ a, (next a).Blind) : (act >>= next).Blind := by
  intro d e hde
  obtain ⟨hr, hd⟩ := h d e hde
  rw [run_bind, run_bind]
  rcases hx : run act d with ⟨x | a, d'⟩
  all_goals
    rcases hy : run act e with ⟨y, e'⟩
    rw [hx, hy] at hr hd
    cases hr
  · exact ⟨rfl, hd⟩
  · exact hn a d' e' hd

theorem blind_tryCatch {act : DiskAction α} {handle : FileError → DiskAction α} (h : act.Blind)
    (hh : ∀ e, (handle e).Blind) : (tryCatch act handle).Blind := by
  intro d e hde
  obtain ⟨hr, hd⟩ := h d e hde
  rw [run_tryCatch, run_tryCatch]
  rcases hx : run act d with ⟨x | a, d'⟩
  all_goals
    rcases hy : run act e with ⟨y, e'⟩
    rw [hx, hy] at hr hd
    cases hr
  · exact hh x d' e' hd
  · exact ⟨rfl, hd⟩

theorem makeDirectory_blind (path : String) : (makeDirectory path).Blind := by
  intro d e h
  rw [run_makeDirectory, run_makeDirectory, h.locate]
  cases d.locate (Path.unslashed path) with
  | error e => exact ⟨rfl, h⟩
  | ok p =>
    simp only [h.node]
    cases d.node? p with
    | some n => exact ⟨rfl, h⟩
    | none => exact ⟨rfl, h.put p .directory⟩

/-- Whether there is a directory shows in the names alone. -/
theorem isDirectory_blind (path : String) (x : FileError) :
    DiskAction.Blind (do if (← get).isDirectory path then pure () else throw x) := by
  intro d e h
  have hsame : e.isDirectory path = d.isDirectory path := by simp only [isDirectory, h.find]
  rw [run_bind, run_bind, run_get, run_get]
  dsimp only
  rw [hsame]
  split
  · exact ⟨rfl, h⟩
  · exact ⟨rfl, h⟩

theorem ensureDirectory_blind (path : String) : (ensureDirectory path).Blind :=
  blind_tryCatch (makeDirectory_blind path) fun x => isDirectory_blind path x

theorem makeUpward_blind (paths : List String) : (makeUpward paths).Blind := by
  induction paths with
  | nil => exact blind_pure ()
  | cons path above ih =>
    rw [makeUpward]
    split
    · exact blind_pure ()
    · refine blind_tryCatch (makeDirectory_blind path) fun x => ?_
      split
      · exact blind_bind ih fun _ => ensureDirectory_blind path
      · exact isDirectory_blind path x

theorem create_blind (path : String) (mode : Nat) : (create path mode).Blind := by
  intro d e h
  rw [run_create, run_create, h.locate]
  cases d.locate (Path.unslashed path) with
  | error e => exact ⟨rfl, h⟩
  | ok p =>
    simp only [h.node]
    split
    · exact ⟨rfl, h⟩
    cases d.node? p with
    | none =>
      rw [h.length]
      exact ⟨rfl, (h.append _).put p _⟩
    | some n =>
      cases n with
      | directory => exact ⟨rfl, h⟩
      | file id => exact ⟨rfl, h.modify id fun _ _ _ _ => .refl _⟩

/-- A file that has just been opened is empty. -/
theorem create_emptied {path : String} {mode : Nat} {d d' : Disk} {handle : Handle}
    (h : run (create path mode) d = (.ok handle, d')) : handle.offset = 0 ∧
      ∀ f, d'.files[handle.file]? = some f → f.content = [] := by
  rw [run_create] at h
  cases hl : d.locate (Path.unslashed path) with
  | error e =>
    rw [hl] at h
    cases h
  | ok p =>
    simp only [hl] at h
    split at h
    · cases h
    split at h
    · cases h
    · cases h
      refine ⟨rfl, fun f hf => ?_⟩
      simp only [List.getElem?_modify_eq, Option.map_eq_map, Option.map_eq_some_iff] at hf
      obtain ⟨_, _, rfl⟩ := hf
      rfl
    · cases h
      refine ⟨rfl, fun f hf => ?_⟩
      rw [put, List.getElem?_concat_length] at hf
      cases hf
      rfl

theorem rename_blind (old new : String) : (rename old new).Blind := by
  intro d e h
  rw [run_rename, run_rename, h.locate, h.locate]
  cases d.locate old with
  | error x => exact ⟨rfl, h⟩
  | ok p =>
    cases d.locate new with
    | error x => exact ⟨rfl, h⟩
    | ok q =>
      simp only [h.node]
      split
      · exact ⟨rfl, h⟩
      · exact ⟨rfl, h⟩
      · exact ⟨rfl, (h.drop p).put q _⟩

theorem unlink_blind (path : String) : (unlink path).Blind := by
  intro d e h
  rw [run_unlink, run_unlink, h.locate]
  cases d.locate path with
  | error x => exact ⟨rfl, h⟩
  | ok p =>
    simp only [h.node]
    split
    · exact ⟨rfl, h⟩
    · exact ⟨rfl, h⟩
    · exact ⟨rfl, h.drop p⟩

/-- What is read of a file differs as the file does. -/
theorem Alike.readText (h : d.Alike e) (path : String) :
    Record.TextsAlike (d.readText path).toOption (e.readText path).toOption := by
  have htext (disk : Disk) (id : Nat) (hf : disk.find path = .ok (.file id)) :
      (disk.readText path).toOption =
        Text.ofUtf8? (((disk.files[id]?).map File.content).getD []) := by
    simp only [Disk.readText, read, hf, bind, Except.bind, pure, Except.pure]
    cases Text.ofUtf8? _ <;> rfl
  have hfind := h.find path
  cases hf : d.find path with
  | error x =>
    rw [hf] at hfind
    simp only [Disk.readText, read, hf, hfind]
    exact .refl none
  | ok n =>
    rw [hf] at hfind
    cases n with
    | directory =>
      simp only [Disk.readText, read, hf, hfind]
      exact .refl none
    | file id =>
      rw [htext d id hf, htext e id hfind]
      cases hd : d.files[id]? with
      | none =>
        rw [List.getElem?_eq_none (h.length ▸ List.getElem?_eq_none_iff.mp hd)]
        exact .refl _
      | some f =>
        obtain ⟨hlt, _⟩ := List.getElem?_eq_some_iff.mp hd
        have he := List.getElem?_eq_getElem (h.length.symm ▸ hlt : id < e.files.length)
        rw [he]
        exact h.files id f _ hd he

end Disk

namespace FileStorage

/-- Storages in one directory of disks that are alike. -/
structure Alike (s t : FileStorage) : Prop where
  dir : t.dir = s.dir
  disk : s.disk.Alike t.disk

/-- However far the writing of two texts gets, the disks are alike as the texts are. -/
theorem writeSteps_alike {d e : Disk} (h : d.Alike e) {x y : String}
    (ht : Record.TextsAlike (some x) (some y)) (dir key : String) :
    (Disk.run (runSteps (writeSteps dir key x)) d).2.Alike
      (Disk.run (runSteps (writeSteps dir key y)) e).2 := by
  rw [run_writeSteps, run_writeSteps]
  obtain ⟨hmade, hd⟩ := Disk.makeUpward_blind (Path.upward dir) d e h
  rw [← Disk.makeDirectories] at hmade hd
  generalize Disk.run (Disk.makeDirectories dir) d = a at hmade hd ⊢
  generalize Disk.run (Disk.makeDirectories dir) e = b at hmade hd ⊢
  obtain ⟨ra, d⟩ := a
  obtain ⟨rb, e⟩ := b
  cases hmade
  cases ra with
  | error x => exact hd
  | ok _ =>
    dsimp only at hd ⊢
    obtain ⟨hopened, hd'⟩ := Disk.create_blind (draftPath dir key) ownerOnly d e hd
    generalize ha : Disk.run (Disk.create (draftPath dir key) ownerOnly) d = a at hopened hd' ⊢
    generalize hb : Disk.run (Disk.create (draftPath dir key) ownerOnly) e = b at hopened hd' ⊢
    obtain ⟨ra, d'⟩ := a
    obtain ⟨rb, e'⟩ := b
    cases hopened
    cases ra with
    | error x => exact hd'
    | ok handle =>
      dsimp only at hd' ⊢
      obtain ⟨hoffset, hempty⟩ := Disk.create_emptied ha
      obtain ⟨_, hempty'⟩ := Disk.create_emptied hb
      refine (Disk.rename_blind _ _ _ _ ?_).2
      rw [List.modify_modify_eq, List.modify_modify_eq]
      refine hd'.modify handle.file fun f g hf hg => ?_
      simp only [Function.comp, hempty f hf, hempty' g hg, hoffset, Disk.overwrite_nil,
        Text.ofUtf8_utf8]
      exact ht

theorem Alike.read {s t : FileStorage} (h : s.Alike t) :
    Record.TextsAlike (s.read credentialsKey).toOption.join
      (t.read credentialsKey).toOption.join := by
  have hread (u : FileStorage) : (u.read credentialsKey).toOption.join =
      (u.disk.readText (path u.dir credentialsKey)).toOption := by
    simp only [FileStorage.read, isKey_credentialsKey, ↓reduceIte]
    split <;> simp_all [Except.toOption]
  rw [hread, hread, h.dir]
  exact h.disk.readText _

theorem Alike.write {s t : FileStorage} (h : s.Alike t) {x y : String}
    (ht : Record.TextsAlike (some x) (some y)) :
    (s.write credentialsKey x).2.Alike (t.write credentialsKey y).2 := by
  rw [write_eq_runSteps isKey_credentialsKey, write_eq_runSteps isKey_credentialsKey, h.dir]
  exact ⟨rfl, writeSteps_alike h.disk ht s.dir credentialsKey⟩

theorem Alike.erase {s t : FileStorage} (h : s.Alike t) :
    (s.erase credentialsKey).2.Alike (t.erase credentialsKey).2 := by
  rw [erase_disk isKey_credentialsKey, erase_disk isKey_credentialsKey, h.dir]
  exact ⟨rfl, (Disk.unlink_blind _ _ _ h.disk).2⟩

instance : Veils FileStorage where
  Alike := Alike
  refl s := ⟨rfl, .refl s.disk⟩
  got h := ⟨h.read, h⟩
  written h ht := h.write ht
  removed h := h.erase

end FileStorage

theorem Session.of_alike {s t : Option Secret} (userId token : String)
    (h : Option.Rel Secret.Alike s t) : (of userId token s).Alike (of userId token t) := by
  refine ⟨rfl, rfl, ?_⟩
  cases h with
  | none => rfl
  | @some s t h =>
    simp only [of, Option.filter_some, show t.isEmpty = s.isEmpty from h]
    split <;> rfl

/-- Vaults that sign with a shared secret, and differ in it at most. -/
structure Vault.Alike [Storage σ] [Veils σ] (v w : Vault σ) : Prop where
  storage : Veils.Alike v.storage w.storage
  scheme : v.scheme = .hmac
  same : w.scheme = v.scheme
  session : v.session.Alike w.session

namespace Vault
variable [Storage σ] [Veils σ] {v w : Vault σ}

theorem Alike.refl (h : v.scheme = .hmac) : v.Alike v :=
  ⟨Veils.refl v.storage, h, rfl, rfl, rfl, rfl⟩

theorem Alike.readRecord (h : v.Alike w) :
    Option.Rel Record.Alike v.readRecord.1 w.readRecord.1 ∧
      v.readRecord.2.Alike w.readRecord.2 := by
  obtain ⟨hfound, hstorage⟩ := Veils.got h.storage
  rw [readRecord_answer, readRecord_answer, h.same, h.scheme]
  exact ⟨hfound, hstorage, h.scheme, h.same, h.session⟩

theorem Alike.load (h : v.Alike w) : w.load.1 = v.load.1 ∧ v.load.2.Alike w.load.2 := by
  obtain ⟨hfound, hleft⟩ := h.readRecord
  unfold Vault.load
  generalize v.readRecord = a at hfound hleft ⊢
  generalize w.readRecord = b at hfound hleft ⊢
  obtain ⟨r, v'⟩ := a
  obtain ⟨q, w'⟩ := b
  cases hfound with
  | none => exact ⟨rfl, hleft⟩
  | @some r q hr =>
    refine ⟨rfl, hleft.storage, hleft.scheme, hleft.same, ?_⟩
    dsimp only
    rw [hr.userId, hr.token]
    exact Session.of_alike r.userId r.token hr.secret

theorem Alike.storedSecret (h : v.Alike w) (userId : String) :
    Option.Rel Secret.Alike (v.storedSecret userId).1 (w.storedSecret userId).1 ∧
      (v.storedSecret userId).2.Alike (w.storedSecret userId).2 := by
  obtain ⟨hfound, hleft⟩ := h.readRecord
  refine ⟨?_, hleft⟩
  change Option.Rel _ ((v.readRecord.1.filter fun r => r.userId == userId).bind (·.secret))
    ((w.readRecord.1.filter fun r => r.userId == userId).bind (·.secret))
  generalize v.readRecord.1 = found at hfound ⊢
  generalize w.readRecord.1 = other at hfound ⊢
  cases hfound with
  | none => exact .none
  | @some r q hr =>
    rw [Option.filter_some, Option.filter_some, hr.userId]
    split
    · exact hr.secret
    · exact .none

theorem Alike.save (h : v.Alike w) (userId token : String) {s t : Secret} (hs : s.Alike t) :
    (v.save userId token s).Alike (w.save userId token t) := by
  have hsaved (u : Vault σ) (secret : Secret) : u.save userId token secret =
      ⟨(Storage.set credentialsKey ((⟨userId, token, some secret⟩ : Record).print u.scheme)
        u.storage).2, u.scheme, .of userId token (some secret)⟩ := rfl
  rw [hsaved, hsaved, h.same, h.scheme]
  exact ⟨Veils.written h.storage (Record.prints_alike userId token hs), rfl, rfl,
    Session.of_alike userId token (.some hs)⟩

theorem Alike.clear (h : v.Alike w) : v.clear.Alike w.clear :=
  ⟨Veils.removed h.storage, h.scheme, h.same, rfl, rfl, rfl⟩

end Vault
end SignedConsole
