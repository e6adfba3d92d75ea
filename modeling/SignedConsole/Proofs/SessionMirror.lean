import SignedConsole.Proofs.FileCells
import SignedConsole.Proofs.StorageCell

namespace SignedConsole

/-- Storage that refuses nothing while it is healthy, and keeps the credentials as a cell. -/
class Reliable (σ : Type) [Storage σ] where
  Healthy : σ → Prop
  /-- The text that is stored. -/
  content : σ → Option String
  get_ok {s : σ} (hs : Healthy s) : ∃ s', Storage.get credentialsKey s = (.ok (content s), s') ∧
    Healthy s' ∧ content s' = content s
  set_ok {s : σ} (hs : Healthy s) (value : String) : ∃ s',
    Storage.set credentialsKey value s = (.ok (), s') ∧ Healthy s' ∧ content s' = some value
  remove_ok {s : σ} (hs : Healthy s) : ∃ s', Storage.remove credentialsKey s = (.ok (), s') ∧
    Healthy s' ∧ content s' = none

instance : Reliable Memory where
  Healthy _ := True
  content m := m.get? credentialsKey
  get_ok {m} _ := ⟨m, rfl, trivial, rfl⟩
  set_ok {m} _ value := ⟨m.insert credentialsKey value, rfl, trivial, m.get_insert _ value⟩
  remove_ok {m} _ := ⟨m.erase credentialsKey, rfl, trivial, m.get_erase _⟩

instance : Reliable FileStorage where
  Healthy s := FileStorage.Healthy credentialsKey s
  content s := (s.read credentialsKey).toOption.join
  get_ok {s} hs := by
    obtain ⟨found, hf⟩ := hs.found
    exact ⟨s, by simp [Storage.get, hf, Except.toOption], hs, rfl⟩
  set_ok hs value := by
    obtain ⟨s', hw, hs', hr⟩ := hs.set value
    exact ⟨s', hw, hs', by simp [hr, Except.toOption]⟩
  remove_ok hs := by
    obtain ⟨s', he, hs', hr⟩ := hs.remove
    exact ⟨s', he, hs', by simp [hr, Except.toOption]⟩

instance [Storage σ] [Reliable σ] : Reliable (Beside σ) where
  Healthy b := Reliable.Healthy b.storage
  content b := Reliable.content b.storage
  get_ok {b} hs := by
    obtain ⟨s', hg, hs', hc⟩ := Reliable.get_ok hs
    exact ⟨{ b with storage := s' }, by simp only [Storage.get, Beside.lift, hg], hs', hc⟩
  set_ok {b} hs value := by
    obtain ⟨s', hw, hs', hc⟩ := Reliable.set_ok hs value
    exact ⟨{ b with storage := s' }, by simp only [Storage.set, Beside.lift, hw], hs', hc⟩
  remove_ok {b} hs := by
    obtain ⟨s', he, hs', hc⟩ := Reliable.remove_ok hs
    exact ⟨{ b with storage := s' }, by simp only [Storage.remove, Beside.lift, he], hs', hc⟩

instance (priority := low) [Storage σ] [Reliable σ] : Keeper σ where
  Sound := Reliable.Healthy
  content := Reliable.content
  got hs := by
    obtain ⟨s', hg, hs', hc⟩ := Reliable.get_ok hs
    rw [hg]
    exact ⟨hs', hc, fun _ h => (Except.ok.inj h).symm⟩
  written hs value := by
    obtain ⟨s', hw, hs', hc⟩ := Reliable.set_ok hs value
    rw [hw]
    exact ⟨hs', hc⟩
  removed hs := by
    obtain ⟨s', he, hs', hc⟩ := Reliable.remove_ok hs
    rw [he]
    exact ⟨hs', hc⟩

namespace Vault

/-- What is done with a vault. -/
inductive Move where
  | save (userId token : String) (secret : Secret)
  | load
  | clear

variable [Storage σ]

def move (v : Vault σ) : Move → Vault σ
  | .save userId token secret => v.save userId token secret
  | .load => v.load.2
  | .clear => v.clear

theorem save_session (v : Vault σ) (userId token : String) (secret : Secret) :
    (v.save userId token secret).session = .of userId token (some secret) := rfl

/-- The vault that someone finds who opens the same storage, and whether there was a record. -/
def reopened (v : Vault σ) : Bool × Vault σ := (closed v.storage v.scheme).load

/-- The session that a stored text stands for, if it stands for one. -/
def sessionOf (scheme : Scheme) (text : Option String) (otherwise : Session) : Session :=
  ((Record.ofStored? scheme text).map fun r => .of r.userId r.token r.secret).getD otherwise

theorem sessionOf_sessionOf (scheme : Scheme) (text : Option String) (otherwise : Session) :
    sessionOf scheme text (sessionOf scheme text otherwise) = sessionOf scheme text otherwise := by
  unfold sessionOf
  cases Record.ofStored? scheme text <;> rfl

theorem session_of_idem (userId token : String) (secret : Secret) :
    Session.of userId token ((some secret).filter fun s => !s.isEmpty) =
      .of userId token (some secret) := by
  simp [Session.of, Option.filter_filter]

variable [Reliable σ]

/-- The live session is the one that the storage holds. -/
structure Mirrors (scheme : Scheme) (v : Vault σ) : Prop where
  healthy : Reliable.Healthy v.storage
  kept : v.scheme = scheme
  session : v.session = sessionOf scheme (Reliable.content v.storage) .anonymous

/-- Loading tells whether there is a record, and makes it the session if there is. -/
theorem load_stored {v : Vault σ} (hs : Reliable.Healthy v.storage) :
    ∃ s', Reliable.Healthy s' ∧ Reliable.content s' = Reliable.content v.storage ∧
      v.load = ((Record.ofStored? v.scheme (Reliable.content v.storage)).isSome,
        { v with storage := s',
                 session := sessionOf v.scheme (Reliable.content v.storage) v.session }) := by
  obtain ⟨s', hg, hs', hc⟩ := Reliable.get_ok hs
  refine ⟨s', hs', hc, ?_⟩
  have hread : v.readRecord =
      (Record.ofStored? v.scheme (Reliable.content v.storage), { v with storage := s' }) := by
    rw [readRecord, hg]
    cases Reliable.content v.storage <;> rfl
  rw [load, hread, sessionOf]
  cases Record.ofStored? v.scheme (Reliable.content v.storage) <;> rfl

theorem Mirrors.load {scheme : Scheme} {v : Vault σ} (h : Mirrors scheme v) :
    Mirrors scheme v.load.2 := by
  obtain ⟨s', hs', hc, hl⟩ := load_stored h.healthy
  rw [hl]
  refine ⟨hs', h.kept, ?_⟩
  change sessionOf v.scheme (Reliable.content v.storage) v.session = _
  rw [hc, h.kept, h.session, sessionOf_sessionOf]

/-- A vault that has just been loaded mirrors its storage, whatever text is there. -/
theorem mirrors_loaded {s : σ} (hs : Reliable.Healthy s) (scheme : Scheme) :
    Mirrors scheme (closed s scheme).load.2 := by
  obtain ⟨s', hs', hc, hl⟩ := load_stored (v := closed s scheme) hs
  rw [hl]
  exact ⟨hs', rfl, by rw [hc]; rfl⟩

theorem Mirrors.save {scheme : Scheme} {v : Vault σ} (h : Mirrors scheme v) (userId token : String)
    (secret : Secret) : Mirrors scheme (v.save userId token secret) ∧
      (Record.ofStored? scheme
        (Reliable.content (v.save userId token secret).storage)).isSome = true := by
  obtain ⟨s', hset, hs', hc⟩ := Reliable.set_ok h.healthy
    ((⟨userId, token, some secret⟩ : Record).print v.scheme)
  have hrecord : Record.ofStored? scheme (Reliable.content s') =
      some ⟨userId, token, (some secret).filter fun s => !s.isEmpty⟩ := by
    rw [hc, h.kept, Record.ofStored_print, Record.readUnder, if_pos rfl]
  have hsave : v.save userId token secret =
      { v with storage := s', session := .of userId token (some secret) } := by
    rw [Vault.save, hset]
  rw [hsave]
  refine ⟨⟨hs', h.kept, ?_⟩, by rw [hrecord]; rfl⟩
  rw [sessionOf, hrecord, Option.map_some, Option.getD_some, session_of_idem]

theorem Mirrors.clear {scheme : Scheme} {v : Vault σ} (h : Mirrors scheme v) :
    Mirrors scheme v.clear ∧ Reliable.content v.clear.storage = none := by
  obtain ⟨s', hremove, hs', hc⟩ := Reliable.remove_ok h.healthy
  have hclear : v.clear = { v with storage := s', session := .anonymous } := by
    rw [Vault.clear, hremove]
  rw [hclear]
  exact ⟨⟨hs', h.kept, by rw [hc]; rfl⟩, hc⟩

theorem Mirrors.move {scheme : Scheme} {v : Vault σ} (h : Mirrors scheme v) (m : Move) :
    Mirrors scheme (v.move m) := by
  cases m with
  | save userId token secret => exact (h.save userId token secret).1
  | load => exact h.load
  | clear => exact h.clear.1

theorem Mirrors.moves {scheme : Scheme} {v : Vault σ} (h : Mirrors scheme v) (moves : List Move) :
    Mirrors scheme (moves.foldl Vault.move v) := by
  induction moves generalizing v with
  | nil => exact h
  | cons m moves ih => exact ih (h.move m)

theorem Mirrors.reopened {scheme : Scheme} {v : Vault σ} (h : Mirrors scheme v) :
    v.reopened.1 = (Record.ofStored? scheme (Reliable.content v.storage)).isSome ∧
      v.reopened.2.session = v.session := by
  obtain ⟨s', _, _, hl⟩ := load_stored (v := closed v.storage v.scheme) h.healthy
  rw [Vault.reopened, hl, h.session, ← h.kept]
  exact ⟨rfl, rfl⟩

/-- Whatever has been done, the live session is the one that is found when the storage is opened
anew; a record is found there right after a save, and none right after a clear. -/
theorem sessions_mirror_storage {s : σ} (hs : Reliable.Healthy s) (scheme : Scheme)
    (moves : List Move) :
    let v := moves.foldl Vault.move (closed s scheme).load.2
    v.scheme = scheme ∧ v.reopened.2.session = v.session ∧
      (∀ userId token secret, (v.save userId token secret).reopened.1 = true) ∧
      v.clear.reopened.1 = false := by
  intro v
  have h : Mirrors scheme v := (mirrors_loaded hs scheme).moves moves
  refine ⟨h.kept, h.reopened.2, fun userId token secret => ?_, ?_⟩
  · obtain ⟨hsave, hsome⟩ := h.save userId token secret
    rw [hsave.reopened.1, hsome]
  · obtain ⟨hclear, hnone⟩ := h.clear
    rw [hclear.reopened.1, hnone]
    rfl

/-- The state directory need not be there yet. -/
theorem new_directory_healthy :
    FileStorage.Healthy credentialsKey ⟨Disk.empty ["home"], "state/console"⟩ where
  sound := Disk.empty_sound ["home"]
  readable := by decide +kernel
  writable := by decide +kernel

/-- A user who logs in on a new machine is still logged in when the console is started again. -/
theorem user_is_kept_in_new_directory :
    FileStorage.Healthy credentialsKey ⟨Disk.empty ["home"], "state/console"⟩ ∧
    ∃ v : Vault FileStorage, v.scheme = .hmac ∧
      v.session = .of "alice123456" "jwt" (some ⟨"sk_test123"⟩) ∧
      v.reopened.2.session = v.session ∧ v.clear.reopened.1 = false := by
  obtain ⟨hscheme, hsession, _, hclear⟩ := sessions_mirror_storage
    (s := (⟨Disk.empty ["home"], "state/console"⟩ : FileStorage)) new_directory_healthy .hmac
    [.clear, .save "alice123456" "jwt" ⟨"sk_test123"⟩]
  refine ⟨new_directory_healthy, _, hscheme, ?_, hsession, hclear⟩
  simp only [List.foldl_cons, List.foldl_nil, move, save_session]

end Vault
end SignedConsole
