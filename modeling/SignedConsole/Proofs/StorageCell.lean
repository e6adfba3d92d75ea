import SignedConsole.Credential.Vault
import SignedConsole.Proofs.RecordRoundTrip
import SignedConsole.Storage.Host
import SignedConsole.Storage.Memory

namespace SignedConsole

/-- Storage that keeps the credentials as a cell, whichever calls it refuses. -/
class Cell (σ : Type) [Storage σ] where
  /-- The text that is stored. -/
  content : σ → Option String
  got (s : σ) : content (Storage.get credentialsKey s).2 = content s ∧
    ∀ found, (Storage.get credentialsKey s).1 = .ok found → found = content s
  written (value : String) (s : σ) : content (Storage.set credentialsKey value s).2 =
    if (Storage.set credentialsKey value s).1.isOk then some value else content s
  removed (s : σ) : content (Storage.remove credentialsKey s).2 =
    if (Storage.remove credentialsKey s).1.isOk then none else content s

theorem Memory.get_insert (m : Memory) (key value : String) :
    (m.insert key value).get? key = some value := by
  simp [get?, insert]

theorem Memory.get_erase (m : Memory) (key : String) : (m.erase key).get? key = none := by
  rw [get?, List.lookup_eq_none_iff]
  intro e he
  have hne : (e.1 != key) = true := (List.mem_filter.mp he).2
  rwa [bne_comm] at hne

instance : Cell Memory where
  content m := m.get? credentialsKey
  got _ := ⟨rfl, fun _ h => (Except.ok.inj h).symm⟩
  written value m := m.get_insert credentialsKey value
  removed m := m.get_erase credentialsKey

instance [Storage σ] [Cell σ] : Cell (Refusing σ) where
  content s := Cell.content s.inner
  got s := by
    obtain ⟨inner, get, set, remove⟩ := s
    cases get with
    | true => exact ⟨rfl, nofun⟩
    | false => exact Cell.got inner
  written value s := by
    obtain ⟨inner, get, set, remove⟩ := s
    cases set with
    | true => rfl
    | false => exact Cell.written value inner
  removed s := by
    obtain ⟨inner, get, set, remove⟩ := s
    cases remove with
    | true => rfl
    | false => exact Cell.removed inner

instance [Storage σ] [Cell σ] : Cell (Beside σ) where
  content b := Cell.content b.storage
  got b := Cell.got b.storage
  written value b := Cell.written value b.storage
  removed b := Cell.removed b.storage

/-- Storage that keeps the credentials as one text while it is sound, whichever calls it refuses. -/
class Keeper (σ : Type) [Storage σ] where
  Sound : σ → Prop
  /-- The text that is stored. -/
  content : σ → Option String
  got {s : σ} (hs : Sound s) : Sound (Storage.get credentialsKey s).2 ∧
    content (Storage.get credentialsKey s).2 = content s ∧
    ∀ found, (Storage.get credentialsKey s).1 = .ok found → found = content s
  written {s : σ} (hs : Sound s) (value : String) :
    Sound (Storage.set credentialsKey value s).2 ∧
    content (Storage.set credentialsKey value s).2 =
      if (Storage.set credentialsKey value s).1.isOk then some value else content s
  removed {s : σ} (hs : Sound s) : Sound (Storage.remove credentialsKey s).2 ∧
    content (Storage.remove credentialsKey s).2 =
      if (Storage.remove credentialsKey s).1.isOk then none else content s

instance [Storage σ] [Cell σ] : Keeper σ where
  Sound _ := True
  content := Cell.content
  got _ := ⟨trivial, Cell.got _⟩
  written _ value := ⟨trivial, Cell.written value _⟩
  removed _ := ⟨trivial, Cell.removed _⟩

namespace Vault

variable [Storage σ]

/-- What is read is the record in the text that the storage answers with, if it does. -/
theorem readRecord_answer (v : Vault σ) : v.readRecord.1 =
    Record.ofStored? v.scheme (Storage.get credentialsKey v.storage).1.toOption.join := by
  unfold readRecord
  rcases Storage.get credentialsKey v.storage with ⟨_ | _ | text, s⟩ <;> rfl

theorem storedSecret_answer (v : Vault σ) (userId : String) : (v.storedSecret userId).1 =
    (v.readRecord.1.filter fun r => r.userId == userId).bind (·.secret) := rfl

variable [Keeper σ] {v : Vault σ}

theorem readRecord_kept (hs : Keeper.Sound v.storage) : ∃ s', Keeper.Sound s' ∧
    Keeper.content s' = Keeper.content v.storage ∧ v.readRecord.2 = { v with storage := s' } ∧
    ∀ r, v.readRecord.1 = some r →
      Record.ofStored? v.scheme (Keeper.content v.storage) = some r := by
  obtain ⟨hs', hkept, hfound⟩ := Keeper.got hs
  refine ⟨_, hs', hkept, rfl, fun r hr => ?_⟩
  rw [readRecord_answer] at hr
  rcases hg : Storage.get credentialsKey v.storage with ⟨e | found, s'⟩
  · rw [hg] at hr
    cases hr
  · rw [hg] at hr hfound
    rw [← hfound found rfl]
    exact hr

/-- Loading makes the session that of the stored record, if it changes it at all. -/
theorem load_kept (hs : Keeper.Sound v.storage) : ∃ s', Keeper.Sound s' ∧
    Keeper.content s' = Keeper.content v.storage ∧
    (v.load.2 = { v with storage := s' } ∨
      ∃ r, Record.ofStored? v.scheme (Keeper.content v.storage) = some r ∧
        v.load.2 = { v with storage := s', session := .of r.userId r.token r.secret }) := by
  obtain ⟨s', hs', hkept, hvault, hrecord⟩ := readRecord_kept hs
  refine ⟨s', hs', hkept, ?_⟩
  unfold load
  rcases hr : v.readRecord with ⟨_ | r, v'⟩
  · rw [hr] at hvault
    exact Or.inl hvault
  · rw [hr] at hvault hrecord
    cases hvault
    exact Or.inr ⟨r, hrecord r rfl, rfl⟩

/-- A stored secret is found for the user of the stored record only. -/
theorem storedSecret_kept (hs : Keeper.Sound v.storage) (userId : String) :
    ∃ s', Keeper.Sound s' ∧ Keeper.content s' = Keeper.content v.storage ∧
      (v.storedSecret userId).2 = { v with storage := s' } ∧
      ∀ secret, (v.storedSecret userId).1 = some secret →
        ∃ r, Record.ofStored? v.scheme (Keeper.content v.storage) = some r ∧ r.userId = userId ∧
          r.secret = some secret := by
  obtain ⟨s', hs', hkept, hvault, hrecord⟩ := readRecord_kept hs
  refine ⟨s', hs', hkept, hvault, fun secret hs => ?_⟩
  obtain ⟨r, hr, hsecret⟩ := Option.bind_eq_some_iff.mp hs
  obtain ⟨hread, huser⟩ := Option.filter_eq_some_iff.mp hr
  exact ⟨r, hrecord r hread, eq_of_beq huser, hsecret⟩

theorem save_kept (hs : Keeper.Sound v.storage) (userId token : String) (secret : Secret) :
    Keeper.Sound (v.save userId token secret).storage ∧
      (Keeper.content (v.save userId token secret).storage =
          some ((⟨userId, token, some secret⟩ : Record).print v.scheme) ∨
        Keeper.content (v.save userId token secret).storage = Keeper.content v.storage) := by
  obtain ⟨hs', hw⟩ := Keeper.written hs ((⟨userId, token, some secret⟩ : Record).print v.scheme)
  refine ⟨hs', ?_⟩
  split at hw
  · exact Or.inl hw
  · exact Or.inr hw

theorem clear_kept (hs : Keeper.Sound v.storage) : Keeper.Sound v.clear.storage ∧
    (Keeper.content v.clear.storage = none ∨
      Keeper.content v.clear.storage = Keeper.content v.storage) := by
  obtain ⟨hs', hr⟩ := Keeper.removed hs
  refine ⟨hs', ?_⟩
  split at hr
  · exact Or.inl hr
  · exact Or.inr hr

end Vault
end SignedConsole
