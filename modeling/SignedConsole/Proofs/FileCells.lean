import SignedConsole.Credential.Vault
import SignedConsole.Proofs.DiskActions
import SignedConsole.Proofs.Utf8RoundTrip
import SignedConsole.Storage.Files

namespace SignedConsole.FileStorage

/-- A key with an ending behind it is the name of one file. -/
theorem key_name {key ending : String} (h : isKey key = true)
    (he : ∀ c ∈ ending.toList, (c == '/') = false) : Path.IsName (key ++ ending) := by
  simp only [isKey, Bool.and_eq_true, Bool.not_eq_true', List.all_eq_true] at h
  obtain ⟨hne, hall⟩ := h
  refine ⟨?_, fun c hc => ?_⟩
  · rw [String.toList_append]
    exact List.append_ne_nil_of_left_ne_nil (by simpa using hne) _
  · rw [String.toList_append, List.mem_append] at hc
    rcases hc with hc | hc
    · have hk := hall c hc
      rw [beq_eq_false_iff_ne]
      rintro rfl
      revert hk
      decide
    · exact he c hc

theorem place_name {key : String} (h : isKey key = true) : Path.IsName (key ++ ".json") :=
  key_name h (by simp)

theorem draft_name {key : String} (h : isKey key = true) : Path.IsName (key ++ ".json.tmp") :=
  key_name h (by simp)

theorem isKey_credentialsKey : isKey credentialsKey = true := by decide

/-- A draft is opened under the very text of its path. -/
theorem draft_unslashed (dir : String) {key : String} (h : isKey key = true) :
    Path.unslashed (draftPath dir key) = draftPath dir key ∧
      Path.endsWithSlash (draftPath dir key) = false := by
  obtain ⟨front, hf⟩ := Path.join_ends dir (draft_name h)
  have hlast : (draftPath dir key).toList.getLast? = some 'p' := by
    rw [draftPath, hf, String.toList_append, ← List.append_assoc]
    simp
  exact ⟨Path.unslashed_of_last hlast (by decide), by simp [Path.endsWithSlash, hlast]⟩

/-- A disk on which a value can be put in its place: neither that place nor the one of the draft is
taken by a directory. -/
structure Ready (d : Disk) (dir key : String) : Prop where
  sound : d.Sound
  draft : ∃ p, d.locate (draftPath dir key) = .ok p ∧ d.node? p ≠ some .directory
  place : ∃ q, d.locate (path dir key) = .ok q ∧ d.node? q ≠ some .directory

theorem run_writeSteps (dir key value : String) (d : Disk) :
    Disk.run (runSteps (writeSteps dir key value)) d =
      match Disk.run (Disk.makeDirectories dir) d with
      | (.error e, d) => (.error e, d)
      | (.ok (), d) =>
        match Disk.run (Disk.create (draftPath dir key) ownerOnly) d with
        | (.error e, d) => (.error e, d)
        | (.ok h, d) =>
          Disk.run (Disk.rename (draftPath dir key) (path dir key)) { d with
            files := (d.files.modify h.file fun f => { f with mode := ownerOnly }).modify h.file
              fun f => { f with
                content := Disk.overwrite f.content h.offset (Text.utf8 value) } } := by
  simp only [runSteps, writeSteps, List.foldlM_cons, List.foldlM_nil, Step.run, Disk.run_bind]
  rcases Disk.run (Disk.makeDirectories dir) d with ⟨e | r, d'⟩
  · rfl
  simp only [Disk.run_pure, Disk.run_map]
  rcases Disk.run (Disk.create (draftPath dir key) ownerOnly) d' with ⟨e | h, d''⟩
  · rfl
  simp only [Disk.run_bind, Disk.run_pure, Disk.run_map, Disk.run_setMode, Disk.run_write]
  rcases Disk.run (Disk.rename _ _) _ with ⟨e | r, d'''⟩ <;> rfl

theorem Ready.same {d d' : Disk} {dir key : String} (h : Ready d dir key)
    (hsame : d.SameDirectories d') (hs : d'.Sound) : Ready d' dir key := by
  obtain ⟨_, ⟨p, hp, hpn⟩, ⟨q, hq, hqn⟩⟩ := h
  exact ⟨hs, ⟨p, hsame.locate hp, fun hd => hpn ((hsame.node p).mp hd)⟩,
    ⟨q, hsame.locate hq, fun hd => hqn ((hsame.node q).mp hd)⟩⟩

/-- What has been put in place is read, and leaves the place free for the next value. -/
structure Holds (d : Disk) (dir key value : String) : Prop where
  ready : Ready d dir key
  text : d.readText (path dir key) = .ok value

theorem readText_of_file {d : Disk} {path value : String} {p : Place} {id mode : Nat}
    (hl : d.locate path = .ok p) (hn : d.node? p = some (.file id))
    (hf : d.files[id]? = some ⟨mode, Text.utf8 value⟩) : d.readText path = .ok value := by
  simp [Disk.readText, Disk.read, Disk.find, hl, hn, hf, Text.ofUtf8_utf8, bind, Except.bind, pure,
    Except.pure]

/-- Every value can be put in place on a disk that is ready. -/
theorem Ready.replace {d : Disk} {dir key : String} (hk : isKey key = true) (h : Ready d dir key)
    (value : String) : ∃ d', Disk.run (runSteps (writeSteps dir key value)) d = (.ok (), d') ∧
      Holds d' dir key value := by
  obtain ⟨hs, ⟨p, hp, hpn⟩, ⟨q, hq, hqn⟩⟩ := id h
  obtain ⟨hu, hslash⟩ := draft_unslashed dir hk
  obtain ⟨id, mode, d₁, hc, hsame, hs₁, hn₁, hf₁⟩ :=
    Disk.create_ready ownerOnly hu hslash hs hp hpn
  rw [run_writeSteps, Disk.makeDirectories_there (Disk.locate_base (place_name hk) hq)]
  simp only [hc]
  generalize hfiles : (d₁.files.modify id fun f => { f with mode := ownerOnly }).modify id
    (fun f => { f with content := Disk.overwrite f.content 0 (Text.utf8 value) }) = files
  have hlen : files.length = d₁.files.length := by simp [← hfiles]
  have hf : files[id]? = some ⟨ownerOnly, Text.utf8 value⟩ := by
    simp [← hfiles, hf₁, Disk.overwrite_nil]
  let d₂ : Disk := { d₁ with files }
  have hsame₂ : d.SameDirectories d₂ := hsame.files files
  have hs₂ : d₂.Sound := fun e he id hid => by simpa [d₂, hlen] using hs₁ e he id hid
  have hp₂ : d₂.node? p = some (.file id) := hn₁
  have hq₂ : d₂.node? q ≠ some .directory := fun hd => hqn ((hsame₂.node q).mp hd)
  have hdrop : d₂.SameDirectories (d₂.drop p) := .drop (by rw [hp₂]; nofun)
  have hqd : (d₂.drop p).node? q ≠ some .directory := fun hd => hq₂ ((hdrop.node q).mp hd)
  have hsame₃ : d.SameDirectories ((d₂.drop p).put q (.file id)) :=
    hsame₂.trans (hdrop.trans (.put id hqd))
  refine ⟨_, Disk.rename_ok_iff.mpr ⟨p, q, .file id, hsame₂.locate hp, hsame₂.locate hq, hp₂, hq₂,
    rfl⟩, ?_, ?_⟩
  · exact h.same hsame₃ ((hs₂.drop p).put (by rintro _ ⟨⟩; exact hs₂.file hp₂))
  · exact readText_of_file (hsame₃.locate hq) (Disk.node_put_self _ (Disk.ne_root hqd)) hf

/-- A disk on which one value could be put in place is ready for others, as soon as there are the
directories. -/
theorem ready_of_replaced {d d' : Disk} {dir key value : String} (hk : isKey key = true)
    (hs : d.Sound) (h : Disk.run (runSteps (writeSteps dir key value)) d = (.ok (), d')) :
    ∃ d₁, Disk.run (Disk.makeDirectories dir) d = (.ok (), d₁) ∧ Ready d₁ dir key := by
  have hgrown := Disk.makeDirectories_grown dir d
  rw [run_writeSteps] at h
  rcases hm : Disk.run (Disk.makeDirectories dir) d with ⟨e | r, d₁⟩
  · rw [hm] at h
    cases h
  rw [hm] at h hgrown
  refine ⟨d₁, rfl, ?_⟩
  obtain ⟨hu, hslash⟩ := draft_unslashed dir hk
  rcases hc : Disk.run (Disk.create (draftPath dir key) ownerOnly) d₁ with ⟨e | open_, d₂⟩
  · simp only [hc] at h
    cases h
  obtain ⟨p, hp, hpn⟩ := Disk.create_ok hu hc
  obtain ⟨id, mode, d₂', hc', hsame, _⟩ :=
    Disk.create_ready ownerOnly hu hslash (hgrown.sound hs) hp hpn
  simp only [hc] at h
  cases hc.symm.trans hc'
  obtain ⟨_, q, _, _, hq, _, hqn, _⟩ := Disk.rename_ok_iff.mp h
  exact ⟨hgrown.sound hs, ⟨p, hp, hpn⟩,
    ⟨q, (hsame.files _).symm.locate hq, fun hd => hqn (((hsame.files _).node q).mpr hd)⟩⟩

/-- A key at which a storage can be read and written, as far as one look and one writing tell. -/
structure Healthy (key : String) (s : FileStorage) : Prop where
  sound : s.disk.Sound
  readable : (s.read key).isOk = true
  writable : (s.write key "").1.isOk = true

theorem write_eq_runSteps {key : String} (hk : isKey key = true) (value : String) (s : FileStorage) :
    s.write key value = ((Disk.run (runSteps (writeSteps s.dir key value)) s.disk).1.mapError failure,
      { s with disk := (Disk.run (runSteps (writeSteps s.dir key value)) s.disk).2 }) := by
  simp only [write, hk, ↓reduceIte]

theorem Healthy.key {key : String} {s : FileStorage} (h : Healthy key s) : isKey key = true := by
  have hw := h.writable
  cases hk : isKey key with
  | true => rfl
  | false =>
    rw [write, if_neg (by simp [hk])] at hw
    cases hw

theorem Healthy.found {key : String} {s : FileStorage} (h : Healthy key s) :
    ∃ found, s.read key = .ok found := by
  have hr := h.readable
  cases hf : s.read key with
  | ok found => exact ⟨found, rfl⟩
  | error e =>
    rw [hf] at hr
    cases hr

/-- Making the directories readies the disk. -/
theorem Healthy.ready {key : String} {s : FileStorage} (h : Healthy key s) :
    ∃ d, Disk.run (Disk.makeDirectories s.dir) s.disk = (.ok (), d) ∧ Ready d s.dir key := by
  have hw := h.writable
  rw [write_eq_runSteps h.key] at hw
  rcases hr : Disk.run (runSteps (writeSteps s.dir key "")) s.disk with ⟨e | r, d⟩
  · rw [hr] at hw
    cases hw
  · exact ready_of_replaced h.key h.sound hr

theorem Ready.healthy {key : String} {s : FileStorage} {found : Option String}
    (hk : isKey key = true) (h : Ready s.disk s.dir key) (hr : s.read key = .ok found) :
    Healthy key s := by
  refine ⟨h.sound, by rw [hr]; rfl, ?_⟩
  obtain ⟨d, hd, _⟩ := h.replace hk ""
  rw [write_eq_runSteps hk, hd]
  rfl

theorem Healthy.set {key : String} {s : FileStorage} (h : Healthy key s) (value : String) :
    ∃ s', s.write key value = (.ok (), s') ∧ Healthy key s' ∧ s'.read key = .ok (some value) := by
  obtain ⟨d, hd, hready⟩ := h.ready
  obtain ⟨d', hd', hholds⟩ := hready.replace h.key value
  have hthere : Disk.run (Disk.makeDirectories s.dir) d = (.ok (), d) := by
    obtain ⟨q, hq, _⟩ := hready.place
    exact Disk.makeDirectories_there (Disk.locate_base (place_name h.key) hq)
  have hrun : Disk.run (runSteps (writeSteps s.dir key value)) s.disk = (.ok (), d') := by
    rw [run_writeSteps, hthere] at hd'
    rw [run_writeSteps, hd]
    exact hd'
  have hread : ({ s with disk := d' } : FileStorage).read key = .ok (some value) := by
    simp only [read, h.key, ↓reduceIte, hholds.text]
  refine ⟨{ s with disk := d' }, ?_, Ready.healthy h.key hholds.ready hread, hread⟩
  rw [write_eq_runSteps h.key, hrun]
  rfl

/-- There is nothing to read where nothing is. -/
theorem readText_missing {d : Disk} {path : String} {p : Place} (hl : d.locate path = .ok p)
    (hn : d.node? p = none) : d.readText path = .error .notFound := by
  simp [Disk.readText, Disk.read, Disk.find, hl, hn, bind, Except.bind, throw, throwThe,
    MonadExceptOf.throw]

theorem readText_unlocated {d : Disk} {path : String} {e : FileError}
    (hl : d.locate path = .error e) : d.readText path = .error e := by
  simp [Disk.readText, Disk.read, Disk.find, hl, bind, Except.bind]

/-- Nothing is read any more once a removal has succeeded. -/
theorem erased_read {key : String} {s s' : FileStorage} (hk : isKey key = true)
    (h : s.erase key = (.ok (), s')) : s'.read key = .ok none := by
  simp only [erase, hk, ↓reduceIte, Disk.run_unlink] at h
  cases hl : s.disk.locate (path s.dir key) with
  | error e =>
    simp only [hl] at h
    cases e <;> cases h
    simp only [read, hk, ↓reduceIte, readText_unlocated hl]
  | ok p =>
    simp only [hl] at h
    cases hn : s.disk.node? p with
    | none =>
      simp only [hn] at h
      cases h
      simp only [read, hk, ↓reduceIte, readText_missing hl hn]
    | some n =>
      cases n with
      | directory =>
        simp only [hn] at h
        cases h
      | file id =>
        have hfile : s.disk.node? p ≠ some .directory := by
          rw [hn]
          nofun
        simp only [hn] at h
        cases h
        simp only [read, hk, ↓reduceIte, readText_missing
          ((Disk.SameDirectories.drop hfile).locate hl) (Disk.node_drop_self (Disk.ne_root hfile))]

/-- Whatever comes of a removal, what it has done to the disk is kept. -/
theorem erase_disk {key : String} (hk : isKey key = true) (s : FileStorage) : (s.erase key).2 =
    { s with disk := (Disk.run (Disk.unlink (path s.dir key)) s.disk).2 } := by
  simp only [erase, hk, ↓reduceIte]
  split <;> simp_all

/-- A removal takes away the file in its place, and there is none where it takes nothing away. -/
theorem erase_cases {key : String} (hk : isKey key = true) (s : FileStorage) :
    ((s.erase key).2.disk = s.disk ∧
      ∀ p id, s.disk.locate (path s.dir key) = .ok p → s.disk.node? p ≠ some (.file id)) ∨
    ∃ p id, s.disk.locate (path s.dir key) = .ok p ∧ s.disk.node? p = some (.file id) ∧
      (s.erase key).2.disk = s.disk.drop p := by
  simp only [erase_disk hk, Disk.run_unlink]
  cases hl : s.disk.locate (path s.dir key) with
  | error e => exact Or.inl ⟨rfl, nofun⟩
  | ok p =>
    cases hn : s.disk.node? p with
    | none =>
      refine Or.inl ⟨by simp only [hn], ?_⟩
      rintro _ id ⟨⟩
      rw [hn]
      nofun
    | some n =>
      cases n with
      | directory =>
        refine Or.inl ⟨by simp only [hn], ?_⟩
        rintro _ id ⟨⟩
        rw [hn]
        nofun
      | file id => exact Or.inr ⟨p, id, rfl, hn, by simp only [hn]⟩

/-- A healthy key can be removed, and stays healthy. -/
theorem Healthy.erase {key : String} {s : FileStorage} (h : Healthy key s) :
    ∃ s', s.erase key = (.ok (), s') ∧ Healthy key s' := by
  have hk := h.key
  cases hl : s.disk.locate (path s.dir key) with
  | error e =>
    have he : e = .notFound := by
      obtain ⟨found, hf⟩ := h.found
      simp only [read, hk, ↓reduceIte, readText_unlocated hl] at hf
      cases e <;> simp_all
    refine ⟨s, ?_, h⟩
    simp only [FileStorage.erase, hk, ↓reduceIte, Disk.run_unlink, hl, he]
  | ok q =>
    have hready : Ready s.disk s.dir key := by
      obtain ⟨d, hd, hready⟩ := h.ready
      rw [Disk.makeDirectories_there (Disk.locate_base (place_name hk) hl)] at hd
      cases hd
      exact hready
    obtain ⟨_, hq, hqn⟩ := hready.place
    cases hl.symm.trans hq
    cases hn : s.disk.node? q with
    | none =>
      refine ⟨s, ?_, h⟩
      simp only [FileStorage.erase, hk, ↓reduceIte, Disk.run_unlink, hl, hn]
    | some n =>
      cases n with
      | directory => exact absurd hn hqn
      | file id =>
        have herased : s.erase key = (.ok (), { s with disk := s.disk.drop q }) := by
          simp only [FileStorage.erase, hk, ↓reduceIte, Disk.run_unlink, hl, hn]
        have hsame : s.disk.SameDirectories (s.disk.drop q) := .drop hqn
        exact ⟨_, herased, Ready.healthy hk (hready.same hsame (h.sound.drop q))
          (erased_read hk herased)⟩

theorem Healthy.remove {key : String} {s : FileStorage} (h : Healthy key s) :
    ∃ s', s.erase key = (.ok (), s') ∧ Healthy key s' ∧ s'.read key = .ok none := by
  obtain ⟨s', he, hs'⟩ := h.erase
  exact ⟨s', he, hs', erased_read h.key he⟩

end SignedConsole.FileStorage
