import Mathlib.Control.Monad.Basic
import SignedConsole.Proofs.FileCells
import SignedConsole.Proofs.LoneFiles

namespace SignedConsole

namespace Disk

/-- The disks that are there while directories are made, from the first to the last. -/
def upwardStages : List String → Disk → List Disk
  | [], d => [d]
  | path :: above, d =>
    if path.isEmpty then [d]
    else match run (makeDirectory path) d with
      | (.error .notFound, d) => upwardStages above d ++
        match run (makeUpward above) d with
        | (.ok (), d) => [(run (ensureDirectory path) d).2]
        | (.error _, _) => []
      | (_, later) => [d, later]

theorem ensureDirectory_disk (path : String) (d : Disk) :
    (run (ensureDirectory path) d).2 = (run (makeDirectory path) d).2 := by
  rw [ensureDirectory, run_tryCatch]
  rcases run (makeDirectory path) d with ⟨e | r, d'⟩
  · exact run_ensure path e d'
  · rfl

theorem upwardStages_last (paths : List String) (d : Disk) :
    (upwardStages paths d).getLast? = some (run (makeUpward paths) d).2 := by
  induction paths generalizing d with
  | nil => rfl
  | cons path above ih =>
    rw [upwardStages, makeUpward]
    split
    · rfl
    rw [run_tryCatch]
    rcases run (makeDirectory path) d with ⟨e | r, d'⟩
    · by_cases he : e = .notFound
      · subst he
        have habove := ih d'
        dsimp only
        rw [if_pos rfl, run_bind]
        rcases hm : run (makeUpward above) d' with ⟨e | r, d''⟩
        · rw [hm] at habove
          simpa using habove
        · simp
      · dsimp only
        rw [if_neg he, run_ensure]
        cases e <;> first | rfl | exact absurd rfl he
    · rfl

/-- On the way nothing happens but that directories are made which lie no deeper than the paths
lead. -/
theorem upwardStages_grown {paths : List String} {depth : Nat} {d : Disk}
    (hp : ∀ path ∈ paths, path.isEmpty = false →
      ".." ∉ Path.parts path ∧ d.depth path ≤ depth) :
    ∀ x ∈ upwardStages paths d, GrownWithin depth d x := by
  induction paths generalizing d with
  | nil =>
    intro x hx
    rw [List.mem_singleton.mp hx]
    exact .refl depth d
  | cons path above ih =>
    rw [upwardStages]
    split
    · intro x hx
      rw [List.mem_singleton.mp hx]
      exact .refl depth d
    rename_i hne
    obtain ⟨hup, hdepth⟩ := hp path List.mem_cons_self (by simpa using hne)
    have hmade : ∀ y, y.workDir = d.workDir →
        GrownWithin depth y (run (makeDirectory path) y).2 := by
      intro y hy
      exact makeDirectory_within hup (by rwa [Disk.depth, start, hy])
    have hfirst := hmade d rfl
    rcases hr : run (makeDirectory path) d with ⟨result, d'⟩
    rw [hr] at hfirst
    have htwo : ∀ x ∈ [d, d'], GrownWithin depth d x := by
      intro x hx
      simp only [List.mem_cons, List.not_mem_nil, or_false] at hx
      rcases hx with rfl | rfl
      · exact .refl depth x
      · exact hfirst
    cases result with
    | ok r => exact htwo
    | error e =>
      by_cases he : e = .notFound
      · subst he
        have habove : ∀ x ∈ upwardStages above d', GrownWithin depth d' x := by
          refine ih fun q hq hqne => ?_
          obtain ⟨hqup, hqdepth⟩ := hp q (List.mem_cons_of_mem _ hq) hqne
          exact ⟨hqup, by rwa [Disk.depth, start, hfirst.grown.workDir]⟩
        intro x hx
        rcases List.mem_append.mp hx with hx | hx
        · exact hfirst.trans (habove x hx)
        · have hlast := upwardStages_last above d'
          rcases hm : run (makeUpward above) d' with ⟨e | r, d''⟩
          · simp [hm] at hx
          · rw [hm] at hx hlast
            rw [List.mem_singleton.mp hx, ensureDirectory_disk]
            have hlater := hfirst.trans (habove d'' (List.mem_of_getLast? hlast))
            exact hlater.trans (hmade d'' hlater.grown.workDir)
      · cases e <;> first | exact htwo | exact absurd rfl he

end Disk

namespace FileStorage

/-- A point at which the steps may be broken off: those that are done, and the disk then. -/
structure Moment where
  done : List Step
  disk : Disk

/-- What the disk may be before a step is done. -/
def Step.stages (open? : Option Handle) (d : Disk) : Step → List Disk
  | .makeDirectories dir => Disk.upwardStages (Path.upward dir) d
  | .write bytes =>
    match open? with
    | some h => (List.range (bytes.length + 1)).map fun n =>
        (Disk.run (Disk.write h (bytes.take n)) d).2
    | none => [d]
  | _ => [d]

/-- All points at which steps that follow others may be broken off, from the first to the last. -/
def moments (done : List Step) (open? : Option Handle) (d : Disk) : List Step → List Moment
  | [] => [⟨done, d⟩]
  | step :: steps => (step.stages open? d).map (⟨done, ·⟩) ++
    match Disk.run (step.run open?) d with
    | (.ok open?, d) => moments (done ++ [step]) open? d steps
    | (.error _, d) => [⟨done, d⟩]

theorem mem_moments_cons {done steps : List Step} {open? : Option Handle} {d : Disk} {step : Step}
    {m : Moment} : m ∈ moments done open? d (step :: steps) ↔
      (∃ x ∈ step.stages open? d, m = ⟨done, x⟩) ∨
      (∃ e x, Disk.run (step.run open?) d = (.error e, x) ∧ m = ⟨done, x⟩) ∨
      ∃ open' d', Disk.run (step.run open?) d = (.ok open', d') ∧
        m ∈ moments (done ++ [step]) open' d' steps := by
  rw [moments, List.mem_append, List.mem_map]
  refine or_congr ?_ ?_
  · simp only [eq_comm]
  · rcases Disk.run (step.run open?) d with ⟨e | open', d'⟩ <;> simp [and_assoc]

/-- The answer that is given where the steps end, if they are not cut off without one. Any of them
may fail for a reason that does not lie in the disk. -/
inductive Answers (steps : List Step) (m : Moment) : Option (Except FileError Unit) → Prop
  | cut : Answers steps m none
  | failed (e : FileError) (h : m.done ≠ steps) : Answers steps m (some (.error e))
  | finished (h : m.done = steps) : Answers steps m (some (.ok ()))

/-- Steps that nothing interferes with come to one of their ends. -/
theorem run_moment (done steps : List Step) (open? : Option Handle) (d : Disk) :
    ∃ m ∈ moments done open? d steps,
      m.disk = (Disk.run (steps.foldlM (fun o step => step.run o) open?) d).2 ∧
      Answers (done ++ steps) m
        (some ((Disk.run (steps.foldlM (fun o step => step.run o) open?) d).1.map fun _ => ())) := by
  induction steps generalizing done open? d with
  | nil => exact ⟨⟨done, d⟩, List.mem_singleton_self _, rfl, .finished (List.append_nil done).symm⟩
  | cons step steps ih =>
    simp only [mem_moments_cons, List.foldlM_cons, Disk.run_bind]
    rcases Disk.run (step.run open?) d with ⟨e | open', d'⟩
    · refine ⟨⟨done, d'⟩, Or.inr (Or.inl ⟨e, d', rfl, rfl⟩), rfl, .failed e ?_⟩
      intro h
      simpa using congrArg List.length h
    · obtain ⟨m, hm, hdisk, ha⟩ := ih (done ++ [step]) open' d'
      rw [List.append_assoc] at ha
      exact ⟨m, Or.inr (Or.inr ⟨open', d', rfl, hm⟩), hdisk, ha⟩

/-- A name with a long ending is no step in the tree. -/
theorem entry_of_ending {name ending : String} (h : Path.IsName (name ++ ending))
    (hl : 2 < ending.toList.length) : Path.IsEntry (name ++ ending) := by
  have hlong : 2 < (name ++ ending).toList.length := by
    rw [String.toList_append, List.length_append]
    omega
  refine ⟨h, ?_, ?_⟩ <;>
  · intro he
    rw [he] at hlong
    exact absurd hlong (by decide)

theorem place_entry {key : String} (h : isKey key = true) : Path.IsEntry (key ++ ".json") :=
  entry_of_ending (place_name h) (by decide)

theorem draft_entry {key : String} (h : isKey key = true) : Path.IsEntry (key ++ ".json.tmp") :=
  entry_of_ending (draft_name h) (by decide)

theorem place_entry_ne {key other : String} (h : key ≠ other) :
    key ++ ".json" ≠ other ++ ".json" := fun he => h (by simpa using he)

theorem place_ne_draft (key other : String) : key ++ ".json" ≠ other ++ ".json.tmp" := by
  intro he
  have hlast := congrArg (fun name : String => name.toList.getLast?) he
  simp at hlast

/-- The paths of entries with different names are different. -/
theorem join_ne {base name other : String} (hn : Path.IsName name) (ho : Path.IsName other)
    (hne : name ≠ other) : Path.join base name ≠ Path.join base other := by
  intro he
  obtain ⟨above, hparts, _⟩ := Path.parts_join base
  have hlast := hparts other ho
  rw [← he, hparts name hn] at hlast
  exact hne (List.singleton_inj.mp (List.append_cancel_left hlast))

/-- A key at which the same is found later, unless its path has a name that is too long: then a file
that was missed for want of a directory may be refused once there is one. -/
def ReadsAlike (before after : FileStorage) (key : String) : Prop :=
  after.read key = before.read key ∨
    before.read key = .ok none ∧ after.read key = .error (failure .nameTooLong) ∧
      Disk.HasLongPart (Path.parts (path before.dir key))

theorem readsAlike_of_text {s : FileStorage} {d : Disk} {key : String} (hk : isKey key = true)
    (h : s.disk.KeepsText d (path s.dir key)) : ReadsAlike s { s with disk := d } key := by
  rcases h with h | ⟨h, h', hlong⟩
  · left
    simp only [read, hk, ↓reduceIte, h]
  · right
    simp only [read, hk, ↓reduceIte, h, h', true_and]
    exact hlong

/-- Directories that lie no deeper than that of the storage are in the way of no key. -/
theorem keepsText_of_grown {dir key : String} {d d' : Disk} (hk : isKey key = true)
    (ht : d.IsTree) (hup : ".." ∉ Path.parts dir) (h : Disk.GrownWithin (d.depth dir) d d') :
    d.KeepsText d' (path dir key) := by
  have hentry := place_entry hk
  have hpath : ".." ∉ Path.parts (path dir key) :=
    Path.parts_join_up hentry.isName hentry.above hup
  refine h.grown.keepsText ht hpath fun p hp hn => ?_
  have hdepth : p.length = d.depth dir + 1 := by
    rw [Disk.locate_depth hpath hp, Disk.depth, Disk.depth, path,
      Path.names_join _ hentry.isName hentry.here, List.length_append, Disk.start, Disk.start,
      Path.join_absolute _ hentry.isName, h.grown.workDir]
    simp [Nat.add_assoc]
  cases hat : d'.node? p with
  | none => rfl
  | some n =>
    cases n with
    | directory =>
      rcases h.new p hat with hold | hle
      · rw [hn] at hold
        cases hold
      · omega
    | file id =>
      rw [(h.grown.file p id).mp hat] at hn
      cases hn

theorem keepsText_of_stage {dir key : String} {d d' : Disk} (hk : isKey key = true)
    (ht : d.IsTree) (hup : ".." ∉ Path.parts dir)
    (h : d' ∈ Disk.upwardStages (Path.upward dir) d) : d.KeepsText d' (path dir key) := by
  refine keepsText_of_grown hk ht hup (Disk.upwardStages_grown (fun p hp hne => ?_) d' h)
  obtain ⟨hpup, hdepth⟩ := Path.upward_shallow hup hp hne
  exact ⟨hpup, hdepth d⟩

theorem run_make_step (open? : Option Handle) (dir : String) (d : Disk) :
    Disk.run (Step.run open? (.makeDirectories dir)) d =
      ((Disk.run (Disk.makeDirectories dir) d).1.map fun _ => open?,
        (Disk.run (Disk.makeDirectories dir) d).2) := Disk.run_bind_pure _ _ d

theorem run_create_step (open? : Option Handle) (path : String) (d : Disk) :
    Disk.run (Step.run open? (.create path)) d =
      ((Disk.run (Disk.create path ownerOnly) d).1.map some,
        (Disk.run (Disk.create path ownerOnly) d).2) := by
  rw [Step.run, ← bind_pure_comp]
  exact Disk.run_bind_pure _ _ d

theorem run_rename_step (open? : Option Handle) (old new : String) (d : Disk) :
    Disk.run (Step.run open? (.rename old new)) d =
      ((Disk.run (Disk.rename old new) d).1.map fun _ => none,
        (Disk.run (Disk.rename old new) d).2) := Disk.run_bind_pure _ _ d

/-- From the opening of a draft on, its place is the only one that differs, until it gets its
name. -/
theorem draft_moments {done : List Step} {old new : String} {bytes : Bytes} {p : Place} {id : Nat}
    {made opened : Disk} {m : Moment} (hdone : .rename old new ∉ done)
    (h : Disk.Drafted p id [] made opened) (hm : m ∈ moments done (some ⟨id, 0⟩) opened
      [.restrict, .write bytes, .sync, .rename old new]) :
    ∃ content drafted, Disk.Drafted p id content made drafted ∧
      (.rename old new ∉ m.done ∧ m.disk = drafted ∨
        m.done = done ++ [.restrict, .write bytes, .sync, .rename old new] ∧ content = bytes ∧
        Disk.run (Disk.rename old new) drafted = (.ok (), m.disk)) := by
  rcases mem_moments_cons.mp hm with ⟨x, hx, rfl⟩ | ⟨e, x, hr, rfl⟩ | ⟨o, d, hr, hm⟩
  · rw [List.mem_singleton.mp hx]
    exact ⟨_, _, h, Or.inl ⟨hdone, rfl⟩⟩
  · cases hr
  cases hr
  have hkept := h.modify (f := fun f => { f with mode := ownerOnly }) fun mode => rfl
  rcases mem_moments_cons.mp hm with ⟨x, hx, rfl⟩ | ⟨e, x, hr, rfl⟩ | ⟨o, d, hr, hm⟩
  · obtain ⟨n, _, rfl⟩ := List.mem_map.mp hx
    have hpart := hkept.modify (c := Disk.overwrite [] 0 (bytes.take n)) (f := fun f => { f with
      content := Disk.overwrite f.content 0 (bytes.take n) }) fun mode => rfl
    exact ⟨_, _, hpart, Or.inl ⟨by simpa using hdone, rfl⟩⟩
  · cases hr
  cases hr
  have hwritten := hkept.modify (c := bytes) (f := fun f => { f with
    content := Disk.overwrite f.content 0 bytes }) fun mode => Disk.overwrite_nil bytes
  rcases mem_moments_cons.mp hm with ⟨x, hx, rfl⟩ | ⟨e, x, hr, rfl⟩ | ⟨o, d, hr, hm⟩
  · rw [List.mem_singleton.mp hx]
    exact ⟨_, _, hwritten, Or.inl ⟨by simpa using hdone, rfl⟩⟩
  · cases hr
  cases hr
  refine ⟨_, _, hwritten, ?_⟩
  rcases mem_moments_cons.mp hm with ⟨x, hx, rfl⟩ | ⟨e, x, hr, rfl⟩ | ⟨o, d, hr, hm⟩
  · rw [List.mem_singleton.mp hx]
    exact Or.inl ⟨by simpa using hdone, rfl⟩
  · rw [run_rename_step] at hr
    rcases hn : Disk.run (Disk.rename old new) _ with ⟨e | r, y⟩
    · rw [hn] at hr
      cases hr
      exact Or.inl ⟨by simpa using hdone, Disk.rename_error hn⟩
    · rw [hn] at hr
      cases hr
  · rw [run_rename_step] at hr
    rcases hn : Disk.run (Disk.rename old new) _ with ⟨e | r, y⟩
    · rw [hn] at hr
      cases hr
    · rw [hn] at hr
      cases hr
      rw [List.mem_singleton.mp hm]
      exact Or.inr ⟨by simp, rfl, rfl⟩

/-- A value has got its place. -/
def Moment.Renamed (m : Moment) (dir key : String) : Prop :=
  .rename (draftPath dir key) (path dir key) ∈ m.done

/-- Where a writing stops: while the directories are made, when the draft holds something, or when
the draft has got its place. -/
theorem write_moments {dir key value : String} {d : Disk} {m : Moment} (hk : isKey key = true)
    (hd : d.Unlinked) (hm : m ∈ moments [] none d (writeSteps dir key value)) :
    (¬ m.Renamed dir key ∧ m.disk ∈ Disk.upwardStages (Path.upward dir) d) ∨
    ∃ made ∈ Disk.upwardStages (Path.upward dir) d, ∃ p, made.locate (draftPath dir key) = .ok p ∧
      ∃ id content drafted, Disk.Drafted p id content made drafted ∧
        (¬ m.Renamed dir key ∧ m.disk = drafted ∨
          m.done = writeSteps dir key value ∧ content = Text.utf8 value ∧
          Disk.run (Disk.rename (draftPath dir key) (path dir key)) drafted = (.ok (), m.disk)) := by
  have hlast : (Disk.run (Disk.makeDirectories dir) d).2 ∈
      Disk.upwardStages (Path.upward dir) d :=
    List.mem_of_getLast? (Disk.upwardStages_last (Path.upward dir) d)
  have hgrown := Disk.makeDirectories_grown dir d
  rcases mem_moments_cons.mp hm with ⟨x, hx, rfl⟩ | ⟨e, x, hr, rfl⟩ | ⟨o, made, hr, hm⟩
  · exact Or.inl ⟨List.not_mem_nil, hx⟩
  · rw [run_make_step] at hr
    rw [(Prod.mk.inj hr).2] at hlast
    exact Or.inl ⟨List.not_mem_nil, hlast⟩
  rw [run_make_step] at hr
  rw [(Prod.mk.inj hr).2] at hlast hgrown
  have hbefore : ¬ Moment.Renamed ⟨[.makeDirectories dir], made⟩ dir key := by
    simp [Moment.Renamed]
  rcases mem_moments_cons.mp hm with ⟨x, hx, rfl⟩ | ⟨e, x, hr, rfl⟩ | ⟨o, opened, hr, hm⟩
  · rw [List.mem_singleton.mp hx]
    exact Or.inl ⟨hbefore, hlast⟩
  · rw [run_create_step] at hr
    rcases hc : Disk.run (Disk.create (draftPath dir key) ownerOnly) made with ⟨e | h, x'⟩
    · rw [hc] at hr
      cases hr
      rw [Disk.create_error hc]
      exact Or.inl ⟨hbefore, hlast⟩
    · rw [hc] at hr
      cases hr
  · rw [run_create_step] at hr
    rcases hc : Disk.run (Disk.create (draftPath dir key) ownerOnly) made with ⟨e | ⟨id, n⟩, x'⟩
    · rw [hc] at hr
      cases hr
    rw [hc] at hr
    cases hr
    obtain ⟨hu, _⟩ := draft_unslashed dir hk
    obtain ⟨p, hl, rfl, hopened⟩ := Disk.create_only (hd.grown hgrown) hu hc
    obtain ⟨content, drafted, hdrafted, hstop⟩ := draft_moments (by simp) hopened hm
    exact Or.inr ⟨made, hlast, p, hl, id, content, drafted, hdrafted, hstop⟩

/-- Entries in the directory of a storage have their own paths and places. -/
theorem entries_apart {base name other : String} (hn : Path.IsEntry name) (ho : Path.IsEntry other)
    (hne : name ≠ other) (d : Disk) : Path.join base name ≠ Path.join base other ∧
      ∀ p q, d.locate (Path.join base name) = .ok p → d.locate (Path.join base other) = .ok q →
        p ≠ q :=
  ⟨join_ne hn.isName ho.isName hne, fun _ _ hp hq => Disk.locate_join_ne hn ho hne hp hq⟩

/-- What is drafted is in the way of no key. -/
theorem drafted_text {dir key other : String} {p : Place} {id : Nat} {content : Bytes}
    {made drafted : Disk} (hk : isKey key = true) (ho : isKey other = true)
    (h : Disk.Drafted p id content made drafted) (hl : made.locate (draftPath dir key) = .ok p) :
    drafted.readText (path dir other) = made.readText (path dir other) :=
  h.only.readText (draft_entry hk) (place_entry ho) (place_ne_draft other key).symm hl

/-- A draft that gets its place is read there, and all other keys are read as before. -/
theorem renamed_text {dir key value : String} {p : Place} {id : Nat} {made drafted later : Disk}
    (hk : isKey key = true) (h : Disk.Drafted p id (Text.utf8 value) made drafted)
    (hl : made.locate (draftPath dir key) = .ok p)
    (hr : Disk.run (Disk.rename (draftPath dir key) (path dir key)) drafted = (.ok (), later)) :
    later.readText (path dir key) = .ok value ∧
      ∀ other, isKey other = true → other ≠ key →
        later.readText (path dir other) = drafted.readText (path dir other) := by
  have hdraft := h.only.directories.locate hl
  obtain ⟨_, q, _, _, hq, _⟩ := Disk.rename_ok_iff.mp hr
  have hpq : p ≠ q := Disk.locate_join_ne (draft_entry hk) (place_entry hk)
    (place_ne_draft key key).symm hdraft hq
  obtain ⟨_, hdirs, hfiles, hnode, _, hsame⟩ :=
    Disk.rename_only h.unlinked hdraft hq hpq h.node hr
  obtain ⟨mode, hfile⟩ := h.file
  refine ⟨readText_of_file (hdirs.locate hq) hnode (hfiles ▸ hfile), fun other ho hne => ?_⟩
  refine Disk.readText_congr
    (hdirs.locate_beside (place_entry hk) (place_entry ho).isName hq) fun r hat => ?_
  have hrp : r ≠ p := Disk.locate_join_ne (place_entry ho) (draft_entry hk)
    (place_ne_draft other key) hat hdraft
  have hrq : r ≠ q := Disk.locate_join_ne (place_entry ho) (place_entry hk)
    (place_entry_ne hne) hat hq
  exact ⟨hsame r hrp hrq, Disk.file_congr (hsame r hrp hrq) hfiles⟩

/-- What is read at a moment of a writing: the value as soon as it has its place, and nothing else
than before where it has not. -/
theorem moment_reads {s : FileStorage} {key value : String} {m : Moment} (hk : isKey key = true)
    (ht : s.disk.IsTree) (hup : ".." ∉ Path.parts s.dir)
    (hm : m ∈ moments [] none s.disk (writeSteps s.dir key value)) :
    (m.done = writeSteps s.dir key value ↔ m.Renamed s.dir key) ∧
    (m.Renamed s.dir key → m.disk.readText (path s.dir key) = .ok value) ∧
    ∀ other, isKey other = true → ¬ m.Renamed s.dir key ∨ other ≠ key →
      s.disk.KeepsText m.disk (path s.dir other) := by
  have hall : m.done = writeSteps s.dir key value → m.Renamed s.dir key := by
    intro h
    simp [Moment.Renamed, h, writeSteps]
  rcases write_moments hk ht.toUnlinked hm with ⟨hnot, hstage⟩ |
    ⟨made, hstage, p, hl, id, content, drafted, hdrafted, hstop⟩
  · exact ⟨⟨hall, fun h => absurd h hnot⟩, fun h => absurd h hnot,
      fun other ho _ => keepsText_of_stage ho ht hup hstage⟩
  have hkeeps : ∀ other, isKey other = true →
      s.disk.KeepsText drafted (path s.dir other) := by
    intro other ho
    rw [Disk.KeepsText, drafted_text hk ho hdrafted hl]
    exact keepsText_of_stage ho ht hup hstage
  rcases hstop with ⟨hnot, hdisk⟩ | ⟨hdone, rfl, hr⟩
  · rw [hdisk]
    exact ⟨⟨hall, fun h => absurd h hnot⟩, fun h => absurd h hnot,
      fun other ho _ => hkeeps other ho⟩
  · obtain ⟨hvalue, hother⟩ := renamed_text hk hdrafted hl hr
    refine ⟨⟨hall, fun _ => hdone⟩, fun _ => hvalue, fun other ho h => ?_⟩
    rw [Disk.KeepsText, hother other ho (h.resolve_left (not_not_intro (hall hdone)))]
    exact hkeeps other ho

/-- A removal is in the way of no other key. -/
theorem erased_others {key other : String} {s : FileStorage} (hk : isKey key = true)
    (ho : isKey other = true) (hne : other ≠ key) : (s.erase key).2.read other = s.read other := by
  rcases erase_cases hk s with ⟨hdisk, _⟩ | ⟨p, id, hl, hn, hdisk⟩
  · rw [read, read, hdisk, erase_disk hk]
  · have hfile : s.disk.node? p ≠ some .directory := by simp [hn]
    have htext : (s.disk.drop p).readText (path s.dir other) =
        s.disk.readText (path s.dir other) := by
      refine Disk.readText_congr ((Disk.SameDirectories.drop hfile).locate_beside
        (place_entry hk) (place_entry ho).isName hl) fun r hat => ?_
      have hrp : r ≠ p := Disk.locate_join_ne (place_entry ho) (place_entry hk)
        (place_entry_ne hne) hat hl
      exact ⟨Disk.node_drop_ne hrp, Disk.file_congr (Disk.node_drop_ne hrp) rfl⟩
    rw [read, read, hdisk, erase_disk hk, htext]

/-- A storage in a tree without links is a map with one writer. Wherever a writing stops, the key has
the value if the draft has got its place, which is what an answer tells, and else what it had; a
removal that succeeds leaves it without one. All other keys keep what they have, as entries have
their own paths and places. Only where nothing was found for want of a directory may a name turn out
to be too long once there is one. What is no key is refused. -/
theorem writes_are_whole (s : FileStorage) (ht : s.disk.IsTree) (hup : ".." ∉ Path.parts s.dir) :
    (∀ key value, isKey key = true →
      let steps := writeSteps s.dir key value
      (∀ m ∈ moments [] none s.disk steps, ∀ answer?, Answers steps m answer? →
        let now : FileStorage := { s with disk := m.disk }
        (m.Renamed s.dir key → now.read key = .ok (some value)) ∧
        (¬ m.Renamed s.dir key → ReadsAlike s now key) ∧
        (∀ other, isKey other = true → other ≠ key → ReadsAlike s now other) ∧
        ∀ answer, answer? = some answer → (answer.isOk = true ↔ m.Renamed s.dir key)) ∧
      (∃ m ∈ moments [] none s.disk steps, ∃ answer, Answers steps m (some answer) ∧
        s.write key value = (answer.mapError failure, { s with disk := m.disk })) ∧
      ∀ s', s.erase key = (.ok (), s') → s'.read key = .ok none ∧
        ∀ other, isKey other = true → other ≠ key → s'.read other = s.read other) ∧
    (∀ key other, isKey key = true → isKey other = true →
      (key ≠ other → path s.dir key ≠ path s.dir other ∧ ∀ p q,
        s.disk.locate (path s.dir key) = .ok p → s.disk.locate (path s.dir other) = .ok q →
          p ≠ q) ∧
      path s.dir key ≠ draftPath s.dir other ∧ ∀ p q,
        s.disk.locate (path s.dir key) = .ok p → s.disk.locate (draftPath s.dir other) = .ok q →
          p ≠ q) ∧
    ∀ key, isKey key = false → s.read key = .error (invalidKey key) ∧
      (∀ value, s.write key value = (.error (invalidKey key), s)) ∧
      s.erase key = (.error (invalidKey key), s) := by
  refine ⟨fun key value hk => ⟨fun m hm answer? ha => ?_, ?_, fun s' he => ?_⟩,
    fun key other hk ho => ?_, fun key hk => ?_⟩
  · obtain ⟨hdone, hvalue, hkeeps⟩ := moment_reads hk ht hup hm
    refine ⟨fun hr => ?_, fun hnot => readsAlike_of_text hk (hkeeps key hk (Or.inl hnot)),
      fun other ho hne => readsAlike_of_text ho (hkeeps other ho (Or.inr hne)), ?_⟩
    · simp only [read, hk, ↓reduceIte, hvalue hr]
    · rintro answer rfl
      rw [← hdone]
      cases ha with
      | failed e h => exact ⟨fun hok => absurd hok Bool.false_ne_true, fun hd => absurd hd h⟩
      | finished h => exact ⟨fun _ => h, fun _ => rfl⟩
  · obtain ⟨m, hm, hdisk, ha⟩ := run_moment [] (writeSteps s.dir key value) none s.disk
    refine ⟨m, hm, _, ha, ?_⟩
    rw [write_eq_runSteps hk, hdisk, runSteps, Disk.run_bind]
    rcases Disk.run (List.foldlM _ none _) s.disk with ⟨e | r, d⟩ <;> rfl
  · have hs' : (s.erase key).2 = s' := congrArg Prod.snd he
    exact ⟨erased_read hk he, fun other ho hne => hs' ▸ erased_others hk ho hne⟩
  · exact ⟨fun hne => entries_apart (place_entry hk) (place_entry ho) (place_entry_ne hne) s.disk,
      entries_apart (place_entry hk) (draft_entry ho) (place_ne_draft key other) s.disk⟩
  · simp [read, write, erase, hk]

/-- On a new disk a value is missed until it has got its place, which it gets, and read from then
on. -/
theorem new_disk_gets_value :
    let s : FileStorage := ⟨.empty ["home"], "state"⟩
    let all := moments [] none s.disk (writeSteps s.dir "k" "v")
    s.disk.IsTree ∧ ".." ∉ Path.parts s.dir ∧ s.read "k" = .ok none ∧
      (∃ m ∈ all, m.Renamed s.dir "k") ∧
      ∀ m ∈ all, m.Renamed s.dir "k" → { s with disk := m.disk }.read "k" = .ok (some "v") := by
  intro s all
  have ht : s.disk.IsTree := Disk.empty_isTree ["home"]
  have hup : ".." ∉ Path.parts s.dir := by decide +kernel
  obtain ⟨hmoments, ⟨m, hm, answer, ha, hw⟩, _⟩ := (writes_are_whole s ht hup).1 "k" "v" rfl
  refine ⟨ht, hup, by decide +kernel, ⟨m, hm, ?_⟩, fun m hm => (hmoments m hm none .cut).1⟩
  have hok : (s.write "k" "v").1.isOk = true := by decide +kernel
  refine ((hmoments m hm _ ha).2.2.2 answer rfl).mp ?_
  rw [hw] at hok
  cases answer with
  | ok _ => rfl
  | error e => cases hok

/-- A key that is too long for the name of a file is found to be so in a directory, and missed where
there is none. -/
theorem long_key_read {s : FileStorage} {key : String} {above : List String} {here : Place}
    (hk : isKey key = true) (hl : Disk.nameLimit < (Text.utf8 (key ++ ".json")).length)
    (hs : Disk.Speakable (path s.dir key))
    (hparts : Path.parts (path s.dir key) = above ++ [key ++ ".json"])
    (hw : s.disk.walk (s.disk.start (path s.dir key)) above = .ok here) :
    (s.disk.node? here = some .directory → s.read key = .error (failure .nameTooLong)) ∧
      (s.disk.node? here = none → s.read key = .ok none) := by
  have hentry := place_entry hk
  have hne : key ++ ".json" ≠ "" := fun he =>
    hentry.isName.1 (String.toList_eq_nil_iff.mpr he)
  have hnext : Disk.onward? here (key ++ ".json") = none := by
    simp [Disk.onward?, hne, hentry.here, hentry.above, hl]
  refine ⟨fun hd => ?_, fun hd => ?_⟩
  · have hlocate : s.disk.locate (path s.dir key) = .error .nameTooLong := by
      rw [Disk.locate_of_speakable hs, hparts, Disk.walk_append hw, Disk.walk_cons,
        Disk.enter_ok_iff.mpr hd]
      simp only [hnext]
    simp only [read, hk, ↓reduceIte, readText_unlocated hlocate]
  · have hlocate : s.disk.locate (path s.dir key) = .error .notFound := by
      rw [Disk.locate_of_speakable hs, hparts, Disk.walk_append hw, Disk.walk_cons, Disk.enter, hd]
    simp only [read, hk, ↓reduceIte, readText_unlocated hlocate]

/-- A key of equal letters. -/
def letters (n : Nat) : String := String.ofList (List.replicate n 'a')

theorem letters_size (n : Nat) : (Text.utf8 (letters n)).length = n := by
  have ha : 'a'.utf8Size = 1 := by decide
  simp [Text.utf8, letters, List.length_flatMap, ha]

theorem letters_key {n : Nat} (hn : n ≠ 0) : isKey (letters n) = true := by
  have ha : ('a'.isAlphanum || 'a' == '_' || 'a' == '-') = true := by decide
  have hne : (letters n).isEmpty = false := by
    simp [letters, hn]
  rw [isKey, hne, letters, String.toList_ofList, List.all_replicate, ha]
  simp

theorem letters_path {n : Nat} (hn : n ≠ 0) (h : n < 4000) :
    Disk.Speakable (path "state" (letters n)) ∧
    Path.parts (path "state" (letters n)) = ["state"] ++ [letters n ++ ".json"] := by
  have hname := place_name (letters_key hn)
  have hparts : Path.parts "state" = ["state"] := by decide +kernel
  have hchars : (path "state" (letters n)).toList =
      "state/".toList ++ (List.replicate n 'a' ++ ".json".toList) := by
    have hslash : Path.endsWithSlash "state" = false := by decide +kernel
    rw [path, Path.join, hname.relative, hslash, letters]
    simp
  refine ⟨⟨?_, ?_, ?_⟩, ?_⟩
  · rw [← Bool.not_eq_true, String.isEmpty_iff, ← String.toList_eq_nil_iff, hchars]
    simp
  · rw [hchars, List.any_append, List.any_append, List.any_replicate]
    simp
  · have ha : 'a'.utf8Size = 1 := by decide
    have hends : ("state/".toList.flatMap String.utf8EncodeChar).length = 6 ∧
        (".json".toList.flatMap String.utf8EncodeChar).length = 5 := by decide
    rw [Text.utf8, hchars, List.flatMap_append, List.flatMap_append, List.length_append,
      List.length_append, hends.1, hends.2]
    simp [List.length_flatMap, ha, Disk.pathLimit]
    omega
  · obtain ⟨above, hjoin, ⟨hb, _⟩ | ⟨_, hb⟩⟩ := Path.parts_join "state"
    · cases hb
    · rw [hparts] at hb
      rcases hb with rfl | hb
      · exact hjoin _ hname
      · have hlast := congrArg List.getLast? hb
        simp at hlast

theorem letters_read {n : Nat} (hn : 250 < n) (h : n < 4000) {s : FileStorage}
    (hdir : s.dir = "state") (hd : s.disk.workDir = ["home"])
    (hw : s.disk.walk ["home"] ["state"] = .ok ["home", "state"]) :
    (s.disk.node? ["home", "state"] = some .directory →
      s.read (letters n) = .error (failure .nameTooLong)) ∧
    (s.disk.node? ["home", "state"] = none → s.read (letters n) = .ok none) := by
  have hk : isKey (letters n) = true := letters_key (by omega)
  obtain ⟨hspeakable, hparts⟩ := letters_path (n := n) (by omega) h
  have hsize : Disk.nameLimit < (Text.utf8 (letters n ++ ".json")).length := by
    rw [Text.utf8, String.toList_append, List.flatMap_append, List.length_append, ← Text.utf8,
      letters_size, Disk.nameLimit]
    have hends : (".json".toList.flatMap String.utf8EncodeChar).length = 5 := by decide
    omega
  have hstart : s.disk.start (path "state" (letters n)) = ["home"] := by
    have hrelative : Path.isAbsolute "state" = false := by decide +kernel
    rw [Disk.start, path, Path.join_absolute _ (place_name hk), hrelative, hd]
    rfl
  rw [← hdir] at hspeakable hparts hstart
  exact long_key_read hk hsize hspeakable hparts (by rwa [hstart, hdir])

/-- A key can be too long for its file, which goes unnoticed while the directory is missing. Nothing
is found then; once another key has been written, reading fails. -/
theorem long_key_is_refused_later :
    let s : FileStorage := ⟨.empty ["home"], "state"⟩
    s.disk.IsTree ∧ ".." ∉ Path.parts s.dir ∧ isKey (letters 251) = true ∧ letters 251 ≠ "k" ∧
      (s.write "k" "v").1 = .ok () ∧ s.read (letters 251) = .ok none ∧
      (s.write "k" "v").2.read (letters 251) = .error (failure .nameTooLong) := by
  have hread := @letters_read 251 (by decide) (by decide)
  have hnone := (hread (s := ⟨.empty ["home"], "state"⟩) rfl rfl (by decide +kernel)).2
    (by decide +kernel)
  have hlong := (hread (s := (write "k" "v" ⟨.empty ["home"], "state"⟩).2)
    (by rw [write_eq_runSteps rfl]) (by decide +kernel) (by decide +kernel)).1 (by decide +kernel)
  refine ⟨Disk.empty_isTree ["home"], by decide +kernel, letters_key (by decide), fun he => ?_,
    by decide +kernel, hnone, hlong⟩
  have hsize := letters_size 251
  rw [he] at hsize
  exact absurd hsize (by decide)

end FileStorage
end SignedConsole
