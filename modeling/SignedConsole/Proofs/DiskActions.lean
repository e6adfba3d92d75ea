import SignedConsole.Proofs.DiskPaths

namespace SignedConsole.Disk

/-- Every name of a file leads to one. -/
def Sound (d : Disk) : Prop := ∀ e ∈ d.entries, ∀ id, e.2 = .file id → id < d.files.length

/-- A disk later on, with directories more and nothing else changed. -/
structure Grown (d d' : Disk) : Prop where
  files : d'.files = d.files
  workDir : d'.workDir = d.workDir
  directory : ∀ p, d.node? p = some .directory → d'.node? p = some .directory
  file : ∀ p id, d'.node? p = some (.file id) ↔ d.node? p = some (.file id)
  sound : d.Sound → d'.Sound

theorem Grown.refl (d : Disk) : Grown d d := ⟨rfl, rfl, fun _ h => h, fun _ _ => Iff.rfl, id⟩

theorem Grown.trans {d d' d'' : Disk} (h : Grown d d') (h' : Grown d' d'') : Grown d d'' where
  files := h'.files.trans h.files
  workDir := h'.workDir.trans h.workDir
  directory p hp := h'.directory p (h.directory p hp)
  file p id := (h'.file p id).trans (h.file p id)
  sound hs := h'.sound (h.sound hs)

theorem lookup_without (entries : List (Place × Node)) (p q : Place) :
    (entries.filter fun e => e.1 ≠ p).lookup q = if q = p then none else entries.lookup q := by
  induction entries with
  | nil => simp
  | cons e es ih =>
    obtain ⟨r, n⟩ := e
    by_cases hr : r = p
    · subst hr
      rw [List.filter_cons_of_neg (by simp), ih]
      split
      · rfl
      · rename_i hq
        rw [List.lookup_cons, beq_eq_false_iff_ne.mpr hq]
    · rw [List.filter_cons_of_pos (by simpa using hr), List.lookup_cons, List.lookup_cons, ih]
      cases hq : q == r with
      | true =>
        cases eq_of_beq hq
        simp [hr]
      | false => rfl

theorem node_put_self {d : Disk} {p : Place} (n : Node) (h : p ≠ []) :
    (d.put p n).node? p = some n := by
  simp [node?, put, h]

theorem node_put_ne {d : Disk} {p q : Place} (n : Node) (h : q ≠ p) :
    (d.put p n).node? q = d.node? q := by
  have hq : (q == p) = false := by simpa using h
  simp only [node?, put, List.lookup_cons, hq, lookup_without, h, ↓reduceIte]

theorem node_drop_self {d : Disk} {p : Place} (h : p ≠ []) : (d.drop p).node? p = none := by
  simp only [node?, drop, h, ↓reduceIte, lookup_without]

theorem node_drop_ne {d : Disk} {p q : Place} (h : q ≠ p) : (d.drop p).node? q = d.node? q := by
  simp only [node?, drop, lookup_without, h, ↓reduceIte]

/-- The root is a directory. -/
theorem ne_root {d : Disk} {p : Place} (h : d.node? p ≠ some .directory) : p ≠ [] := by
  rintro rfl
  exact h rfl

theorem Sound.put {d : Disk} (hs : d.Sound) {p : Place} {n : Node}
    (hn : ∀ id, n = .file id → id < d.files.length) : (d.put p n).Sound := by
  intro e he id hid
  rcases List.mem_cons.mp he with rfl | he
  · exact hn id hid
  · exact hs e (List.mem_filter.mp he).1 id hid

theorem Sound.drop {d : Disk} (hs : d.Sound) (p : Place) : (d.drop p).Sound := fun e he id hid =>
  hs e (List.mem_filter.mp he).1 id hid

theorem Sound.file {d : Disk} (hs : d.Sound) {p : Place} {id : Nat}
    (h : d.node? p = some (.file id)) : id < d.files.length := by
  unfold node? at h
  split at h
  · cases h
  · obtain ⟨l, r, he, _⟩ := List.lookup_eq_some_iff.mp h
    exact hs (p, .file id) (he ▸ by simp) id rfl

theorem empty_sound (workDir : Place) : (empty workDir).Sound := by
  intro e he id hid
  obtain ⟨i, _, rfl⟩ := List.mem_map.mp he
  cases hid

theorem file_node {d : Disk} {p : Place} {f : File} (h : d.file? p = some f) :
    ∃ id, d.node? p = some (.file id) ∧ d.files[id]? = some f := by
  unfold file? at h
  split at h
  · rename_i id hn
    exact ⟨id, hn, h⟩
  · cases h

theorem run_pure (a : α) (d : Disk) : run (pure a) d = (.ok a, d) := rfl

theorem run_bind (act : DiskAction α) (next : α → DiskAction β) (d : Disk) :
    run (act >>= next) d = match run act d with
      | (.ok a, d') => run (next a) d'
      | (.error e, d') => (.error e, d') := by
  simp only [run, ExceptT.run_bind, StateT.run_bind]
  rcases act.run.run d with ⟨a | e, d'⟩ <;> rfl

theorem run_map (f : α → β) (act : DiskAction α) (d : Disk) :
    run (f <$> act) d = match run act d with
      | (.ok a, d') => (.ok (f a), d')
      | (.error e, d') => (.error e, d') := by
  rw [← bind_pure_comp, run_bind]
  rcases run act d with ⟨e | a, d'⟩ <;> rfl

theorem run_bind_pure (act : DiskAction α) (f : α → β) (d : Disk) :
    run (act >>= fun a => pure (f a)) d = ((run act d).1.map f, (run act d).2) := by
  rw [run_bind]
  rcases run act d with ⟨e | a, d'⟩ <;> rfl

theorem run_tryCatch (act : DiskAction α) (handle : FileError → DiskAction α) (d : Disk) :
    run (tryCatch act handle) d = match run act d with
      | (.ok a, d') => (.ok a, d')
      | (.error e, d') => run (handle e) d' := by
  simp only [run, tryCatch, tryCatchThe, MonadExceptOf.tryCatch, ExceptT.tryCatch, ExceptT.run,
    ExceptT.mk, StateT.run_bind]
  generalize StateT.run act d = found
  rcases found with ⟨a | e, d'⟩ <;> rfl

theorem run_get (d : Disk) : run get d = (.ok d, d) := rfl

theorem run_lift (x : Except FileError α) (d : Disk) :
    run (liftM x) d = (x, d) := by
  cases x <;> rfl

theorem run_makeDirectory (path : String) (d : Disk) : run (makeDirectory path) d =
    match d.locate (Path.unslashed path) with
    | .error e => (.error e, d)
    | .ok p => match d.node? p with
      | some _ => (.error .exists, d)
      | none => (.ok (), d.put p .directory) := by
  simp only [makeDirectory, run_bind, run_get, run_lift]
  cases d.locate (Path.unslashed path) with
  | error e => rfl
  | ok p =>
    dsimp only
    cases d.node? p <;> rfl

theorem run_create (path : String) (mode : Nat) (d : Disk) : run (create path mode) d =
    match d.locate (Path.unslashed path) with
    | .error e => (.error e, d)
    | .ok p =>
      if Path.endsWithSlash path then (.error .isDirectory, d)
      else match d.node? p with
      | some .directory => (.error .isDirectory, d)
      | some (.file id) =>
        (.ok ⟨id, 0⟩,
          { d with files := d.files.modify id fun f => { f with content := [] } })
      | none =>
        (.ok ⟨d.files.length, 0⟩,
          ({ d with files := d.files ++ [⟨mode &&& (0o777 ^^^ mask), []⟩] } : Disk).put p
            (.file d.files.length)) := by
  simp only [create, run_bind, run_get, run_lift]
  cases d.locate (Path.unslashed path) with
  | error e => rfl
  | ok p =>
    cases Path.endsWithSlash path with
    | true => rfl
    | false =>
      dsimp only
      cases d.node? p with
      | none => rfl
      | some n => cases n <;> rfl

theorem run_rename (old new : String) (d : Disk) : run (rename old new) d =
    match d.locate old, d.locate new with
    | .error e, _ => (.error e, d)
    | .ok _, .error e => (.error e, d)
    | .ok p, .ok q => match d.node? p, d.node? q with
      | none, _ => (.error .notFound, d)
      | _, some .directory => (.error .isDirectory, d)
      | some n, _ => (.ok (), (d.drop p).put q n) := by
  simp only [rename, run_bind, run_get, run_lift]
  cases d.locate old with
  | error e => rfl
  | ok p =>
    cases d.locate new with
    | error e => rfl
    | ok q =>
      dsimp only
      cases d.node? p with
      | none => rfl
      | some n =>
        cases d.node? q with
        | none => rfl
        | some m => cases m <;> rfl

theorem run_unlink (path : String) (d : Disk) : run (unlink path) d =
    match d.locate path with
    | .error e => (.error e, d)
    | .ok p => match d.node? p with
      | none => (.error .notFound, d)
      | some .directory => (.error .isDirectory, d)
      | some (.file _) => (.ok (), d.drop p) := by
  simp only [unlink, run_bind, run_get, run_lift]
  cases d.locate path with
  | error e => rfl
  | ok p =>
    dsimp only
    cases d.node? p with
    | none => rfl
    | some n => cases n <;> rfl

theorem run_setMode (id mode : Nat) (d : Disk) : run (setMode id mode) d =
    (.ok (), { d with files := d.files.modify id fun f => { f with mode } }) := rfl

theorem run_write (h : Handle) (bytes : Bytes) (d : Disk) : run (write h bytes) d =
    (.ok { h with offset := h.offset + bytes.length }, { d with
      files := d.files.modify h.file fun f =>
        { f with content := overwrite f.content h.offset bytes } }) := rfl

/-- What stands in an empty file after one writing. -/
theorem overwrite_nil (bytes : Bytes) : overwrite [] 0 bytes = bytes := by simp [overwrite]

theorem makeDirectory_grown (path : String) (d : Disk) : Grown d (run (makeDirectory path) d).2 := by
  rw [run_makeDirectory]
  cases d.locate (Path.unslashed path) with
  | error e => exact .refl d
  | ok p =>
    dsimp only
    cases hn : d.node? p with
    | some n => exact .refl d
    | none =>
      have hroot : p ≠ [] := ne_root (by rw [hn]; nofun)
      refine ⟨rfl, rfl, fun q hq => ?_, fun q id => ?_, fun hs => hs.put (by rintro id ⟨⟩)⟩
      · have hne : q ≠ p := by
          rintro rfl
          rw [hn] at hq
          cases hq
        rw [node_put_ne _ hne]
        exact hq
      · by_cases hq : q = p
        · rw [hq, node_put_self _ hroot, hn]
          exact ⟨nofun, nofun⟩
        · rw [node_put_ne _ hq]

theorem run_ensure (path : String) (e : FileError) (d : Disk) :
    (run (do if (← get).isDirectory path then pure () else throw e) d).2 = d := by
  rw [run_bind, run_get]
  dsimp only
  split <;> rfl

theorem ensureDirectory_grown (path : String) (d : Disk) :
    Grown d (run (ensureDirectory path) d).2 := by
  have hm := makeDirectory_grown path d
  rw [ensureDirectory, run_tryCatch]
  rcases h : run (makeDirectory path) d with ⟨r | e, d'⟩
  · rw [h] at hm
    dsimp only
    rw [run_ensure]
    exact hm
  · rw [h] at hm
    exact hm

theorem makeUpward_grown (paths : List String) (d : Disk) :
    Grown d (run (makeUpward paths) d).2 := by
  induction paths generalizing d with
  | nil => exact .refl d
  | cons path above ih =>
    rw [makeUpward]
    split
    · exact .refl d
    have hm := makeDirectory_grown path d
    rw [run_tryCatch]
    rcases h : run (makeDirectory path) d with ⟨e | r, d'⟩
    · rw [h] at hm
      dsimp only
      split
      · have ha := hm.trans (ih d')
        rw [run_bind]
        rcases hu : run (makeUpward above) d' with ⟨e | r, d''⟩
        · rw [hu] at ha
          exact ha
        · rw [hu] at ha
          exact ha.trans (ensureDirectory_grown path d'')
      · rw [run_ensure]
        exact hm
    · rw [h] at hm
      exact hm

theorem makeDirectories_grown (path : String) (d : Disk) :
    Grown d (run (makeDirectories path) d).2 := makeUpward_grown _ d

/-- There is nothing to make where the directory is, nor for the empty path. -/
theorem makeDirectories_there {path : String} {d : Disk} (h : path.isEmpty = true ∨
    ∃ p, d.locate path = .ok p ∧ d.node? p = some .directory) :
    run (makeDirectories path) d = (.ok (), d) := by
  rw [makeDirectories, Path.upward, makeUpward]
  rcases h with h | ⟨p, hl, hn⟩
  · rw [if_pos h]
    rfl
  · have hne := (locate_ok_iff.mp hl).1.nonempty
    have hd : d.isDirectory path = true := by
      simp [isDirectory, find, hl, hn, bind, Except.bind, pure, Except.pure]
    rw [if_neg (by simp [hne]), run_tryCatch, run_makeDirectory, locate_unslashed hl]
    simp only [hn]
    rw [if_neg (by decide), run_bind, run_get]
    simp only [hd, ↓reduceIte]
    rfl

/-- A disk whose directories are those of another. -/
structure SameDirectories (d d' : Disk) : Prop where
  workDir : d'.workDir = d.workDir
  node : ∀ p, d'.node? p = some .directory ↔ d.node? p = some .directory

theorem SameDirectories.refl (d : Disk) : SameDirectories d d := ⟨rfl, fun _ => Iff.rfl⟩

theorem SameDirectories.trans {d d' d'' : Disk} (h : SameDirectories d d')
    (h' : SameDirectories d' d'') : SameDirectories d d'' :=
  ⟨h'.workDir.trans h.workDir, fun p => (h'.node p).trans (h.node p)⟩

theorem SameDirectories.symm {d d' : Disk} (h : SameDirectories d d') : SameDirectories d' d :=
  ⟨h.workDir.symm, fun p => (h.node p).symm⟩

theorem SameDirectories.files {d d' : Disk} (h : SameDirectories d d') (files : List File) :
    SameDirectories d { d' with files } := ⟨h.workDir, h.node⟩

theorem SameDirectories.locate {d d' : Disk} (h : SameDirectories d d') {path : String} {p : Place}
    (hp : d.locate path = .ok p) : d'.locate path = .ok p :=
  locate_keeps h.workDir (fun p => (h.node p).mpr) hp

theorem SameDirectories.drop {d : Disk} {p : Place} (h : d.node? p ≠ some .directory) :
    SameDirectories d (d.drop p) := by
  refine ⟨rfl, fun r => ?_⟩
  by_cases hr : r = p
  · rw [hr, node_drop_self (ne_root h)]
    exact ⟨nofun, fun h' => absurd h' h⟩
  · rw [node_drop_ne hr]

theorem SameDirectories.put {d : Disk} {p : Place} (id : Nat) (h : d.node? p ≠ some .directory) :
    SameDirectories d (d.put p (.file id)) := by
  refine ⟨rfl, fun r => ?_⟩
  by_cases hr : r = p
  · rw [hr, node_put_self _ (ne_root h)]
    exact ⟨nofun, fun h' => absurd h' h⟩
  · rw [node_put_ne _ hr]

/-- A file that can be opened for writing is empty then, whether it was there or not. -/
theorem create_ready (mode : Nat) {path : String} {d : Disk} {p : Place}
    (hu : Path.unslashed path = path) (he : Path.endsWithSlash path = false) (hs : d.Sound)
    (hl : d.locate path = .ok p) (hn : d.node? p ≠ some .directory) :
    ∃ id m d', run (create path mode) d = (.ok ⟨id, 0⟩, d') ∧ SameDirectories d d' ∧ d'.Sound ∧
      d'.node? p = some (.file id) ∧ d'.files[id]? = some ⟨m, []⟩ := by
  rw [run_create, hu, hl]
  simp only [he, Bool.false_eq_true, ↓reduceIte]
  cases hp : d.node? p with
  | none =>
    let longer : Disk := { d with files := d.files ++ [⟨mode &&& (0o777 ^^^ mask), []⟩] }
    have hlonger : longer.Sound := fun e he id hid => by
      have := hs e he id hid
      simp only [longer, List.length_append]
      omega
    have hsame : SameDirectories d longer := (SameDirectories.refl d).files _
    exact ⟨_, mode &&& (0o777 ^^^ mask), _, rfl, hsame.trans (.put _ hn),
      hlonger.put (by rintro id ⟨⟩; simp [longer]), node_put_self _ (ne_root hn), by simp [put]⟩
  | some n =>
    cases n with
    | directory => exact absurd hp hn
    | file id =>
      have hid := hs.file hp
      refine ⟨id, d.files[id].mode, _, rfl, (SameDirectories.refl d).files _, ?_, hp, ?_⟩
      · intro e he id hid
        simpa using hs e he id hid
      · simp [hid]

/-- What can be opened for writing is no directory. -/
theorem create_ok {path : String} {mode : Nat} {d d' : Disk} {h : Handle}
    (hu : Path.unslashed path = path) (hc : run (create path mode) d = (.ok h, d')) :
    ∃ p, d.locate path = .ok p ∧ d.node? p ≠ some .directory := by
  rw [run_create, hu] at hc
  cases hl : d.locate path with
  | error e =>
    rw [hl] at hc
    cases hc
  | ok p =>
    rw [hl] at hc
    refine ⟨p, rfl, fun hn => ?_⟩
    simp only [hn] at hc
    split at hc <;> cases hc

theorem rename_error {old new : String} {d d' : Disk} {e : FileError}
    (hr : run (rename old new) d = (.error e, d')) : d' = d := by
  rw [run_rename] at hr
  split at hr
  · exact (Prod.mk.inj hr).2.symm
  · exact (Prod.mk.inj hr).2.symm
  · split at hr
    · exact (Prod.mk.inj hr).2.symm
    · exact (Prod.mk.inj hr).2.symm
    · cases hr

/-- What cannot be opened is left as it is. -/
theorem create_error {path : String} {mode : Nat} {d d' : Disk} {e : FileError}
    (hc : run (create path mode) d = (.error e, d')) : d' = d := by
  rw [run_create] at hc
  cases hl : d.locate (Path.unslashed path) with
  | error e =>
    rw [hl] at hc
    exact (Prod.mk.inj hc).2.symm
  | ok p =>
    simp only [hl] at hc
    split at hc
    · exact (Prod.mk.inj hc).2.symm
    · split at hc
      · exact (Prod.mk.inj hc).2.symm
      · cases hc
      · cases hc

theorem rename_ok_iff {old new : String} {d d' : Disk} :
    run (rename old new) d = (.ok (), d') ↔ ∃ p q n, d.locate old = .ok p ∧
      d.locate new = .ok q ∧ d.node? p = some n ∧ d.node? q ≠ some .directory ∧
      d' = (d.drop p).put q n := by
  rw [run_rename]
  cases d.locate old with
  | error e => simp
  | ok p =>
    cases d.locate new with
    | error e => simp
    | ok q =>
      dsimp only
      cases hp : d.node? p with
      | none => simp [hp]
      | some n =>
        cases hq : d.node? q with
        | none => simp [hp, hq, eq_comm]
        | some m => cases m <;> simp [hp, hq, eq_comm]

end SignedConsole.Disk
