import SignedConsole.Proofs.DiskActions

namespace SignedConsole.Disk

variable {d d' : Disk}

theorem walk_cons (d : Disk) (here : Place) (part : String) (parts : List String) :
    d.walk here (part :: parts) = match d.enter here with
      | .error e => .error e
      | .ok () => match onward? here part with
        | some next => d.walk next parts
        | none => .error .nameTooLong := by
  rw [walk]
  cases d.enter here with
  | error e => rfl
  | ok _ =>
    simp only [bind, Except.bind, onward?]
    split
    · rfl
    split
    · rfl
    split <;> rfl

theorem onward_length {here : Place} {part : String} (h : onward? here part = none) :
    nameLimit < (Text.utf8 part).length := by
  unfold onward? at h
  split at h
  · cases h
  split at h
  · cases h
  split at h
  · assumption
  · cases h

/-- Without going up, a part leads to the same place or to one right below it. -/
theorem onward_down {here next : Place} {part : String} (hp : part ≠ "..")
    (h : onward? here part = some next) :
    next = here ++ [part].filter fun p => p != "" && p != "." := by
  unfold onward? at h
  split at h
  · rename_i hblank
    cases h
    rcases Bool.or_eq_true_iff.mp hblank with hb | hb <;> cases eq_of_beq hb <;> simp
  split at h
  · rename_i hup
    exact absurd (eq_of_beq hup) hp
  split at h
  · cases h
  · rename_i hblank _ _
    cases h
    simp only [Bool.or_eq_true, beq_iff_eq, not_or] at hblank
    simp [hblank.1, hblank.2]

theorem walk_down {here p : Place} {parts : List String} (hup : ".." ∉ parts)
    (h : d.walk here parts = .ok p) :
    p = here ++ parts.filter fun p => p != "" && p != "." := by
  induction parts generalizing here with
  | nil => simpa [walk] using (Except.ok.inj h).symm
  | cons part parts ih =>
    obtain ⟨_, next, hnext, hw⟩ := walk_cons_ok_iff.mp h
    have hpart := onward_down (fun he => hup (he ▸ List.mem_cons_self)) hnext
    rw [ih (fun hm => hup (List.mem_cons_of_mem _ hm)) hw, hpart, List.append_assoc,
      ← List.filter_append, List.singleton_append]

/-- What is entered is a directory; else a file is in the way, or nothing is there. -/
theorem enter_cases (d : Disk) (here : Place) : d.enter here = .ok () ∨
    d.enter here = .error .notDirectory ∧ (∃ id, d.node? here = some (.file id)) ∨
    d.enter here = .error .notFound ∧ d.node? here = none := by
  unfold enter
  cases hn : d.node? here with
  | none => exact Or.inr (Or.inr ⟨rfl, rfl⟩)
  | some n =>
    cases n with
    | directory => exact Or.inl rfl
    | file id => exact Or.inr (Or.inl ⟨rfl, id, rfl⟩)

/-- What is refused for another reason than that something is missing stays refused. -/
theorem Grown.walk_refused (h : Grown d d') {here : Place} {parts : List String} {e : FileError}
    (hw : d.walk here parts = .error e) (he : e ≠ .notFound) : d'.walk here parts = .error e := by
  induction parts generalizing here with
  | nil => cases hw
  | cons part parts ih =>
    rw [walk_cons] at hw ⊢
    rcases enter_cases d here with hd | ⟨hd, id, hid⟩ | ⟨hd, _⟩
    · rw [hd] at hw
      rw [enter_ok_iff.mpr (h.directory here (enter_ok_iff.mp hd))]
      dsimp only at hw ⊢
      cases hn : onward? here part with
      | none => simpa only [hn] using hw
      | some next =>
        simp only [hn] at hw
        exact ih hw
    · rw [hd] at hw
      rw [enter, (h.file here id).mpr hid]
      exact hw
    · rw [hd] at hw
      exact absurd (Except.error.inj hw).symm he

theorem Grown.file_eq (h : Grown d d') (p : Place) : d'.file? p = d.file? p := by
  unfold file?
  cases hn : d.node? p with
  | none =>
    cases hn' : d'.node? p with
    | none => rfl
    | some n =>
      cases n with
      | directory => rfl
      | file id =>
        rw [(h.file p id).mp hn'] at hn
        cases hn
  | some n =>
    cases n with
    | directory => rw [h.directory p hn]
    | file id => rw [(h.file p id).mpr hn, h.files]

/-- A disk whose files have one name each. -/
structure Unlinked (d : Disk) : Prop where
  sound : d.Sound
  single : ∀ p q id, d.node? p = some (.file id) → d.node? q = some (.file id) → p = q

/-- A disk as it is without links: whatever has a name has it in a directory. -/
structure IsTree (d : Disk) : Prop extends Unlinked d where
  parent : ∀ p name n, d.node? (p ++ [name]) = some n → d.node? p = some .directory

theorem IsTree.nothing_below (h : d.IsTree) {here : Place} (hn : d.node? here = none)
    (below : Place) : d.node? (here ++ below) = none := by
  induction below generalizing here with
  | nil => rwa [List.append_nil]
  | cons name below ih =>
    have hnext : d.node? (here ++ [name]) = none := by
      cases hb : d.node? (here ++ [name]) with
      | none => rfl
      | some n =>
        rw [h.parent here name n hb] at hn
        cases hn
    rw [List.append_cons]
    exact ih hnext

theorem lookup_directories (places : List Place) (p : Place) :
    (places.map fun q => (q, Node.directory)).lookup p =
      if p ∈ places then some .directory else none := by
  induction places with
  | nil => rfl
  | cons q places ih =>
    rw [List.map_cons, List.lookup_cons, ih]
    by_cases h : p = q
    · simp [h]
    · rw [beq_eq_false_iff_ne.mpr h]
      simp [h]

/-- A new disk has the places on the way to its working directory. -/
theorem empty_node (workDir p : Place) :
    (empty workDir).node? p = if p <+: workDir then some .directory else none := by
  have hentries : (empty workDir).entries =
      ((List.range workDir.length).map fun i => workDir.take (i + 1)).map
        fun q => (q, Node.directory) := by
    rw [List.map_map]
    rfl
  rw [node?, hentries, lookup_directories]
  by_cases hp : p = []
  · simp [hp]
  · rw [if_neg hp]
    congr 1
    rw [List.mem_map, List.prefix_iff_eq_take, eq_iff_iff]
    constructor
    · rintro ⟨i, hi, rfl⟩
      rw [List.length_take, Nat.min_eq_left (List.mem_range.mp hi)]
    · intro h
      have hlen : p.length ≤ workDir.length := by
        rw [h, List.length_take]
        exact Nat.min_le_right _ _
      have hpos := List.length_pos_iff.mpr hp
      exact ⟨p.length - 1, List.mem_range.mpr (by omega), by rw [Nat.sub_add_cancel hpos, ← h]⟩

theorem empty_isTree (workDir : Place) : (empty workDir).IsTree where
  sound := empty_sound workDir
  single p q id hp := absurd ((empty_sound workDir).file hp) (Nat.not_lt_zero id)
  parent p name n h := by
    rw [empty_node] at h ⊢
    split at h
    · rename_i hprefix
      rw [if_pos ((List.prefix_append p [name]).trans hprefix)]
    · cases h

/-- What a name is refused for is its length. -/
def HasLongPart (parts : List String) : Prop :=
  ∃ part ∈ parts, nameLimit < (Text.utf8 part).length

theorem HasLongPart.cons {part : String} {parts : List String} (h : HasLongPart parts) :
    HasLongPart (part :: parts) := by
  obtain ⟨long, hm, hl⟩ := h
  exact ⟨long, List.mem_cons_of_mem _ hm, hl⟩

/-- Where nothing was there is nothing but new directories, so a walk through it ends at a new place
or for want of one, or else at a name that is too long. -/
theorem Grown.walk_new (h : Grown d d') {here : Place} {parts : List String} (hup : ".." ∉ parts)
    (hn : ∀ below, d.node? (here ++ below) = none) :
    (∃ p, d'.walk here parts = .ok p ∧ d.node? p = none) ∨ d'.walk here parts = .error .notFound ∨
      d'.walk here parts = .error .nameTooLong ∧ HasLongPart parts := by
  induction parts generalizing here with
  | nil => exact Or.inl ⟨here, rfl, by simpa using hn []⟩
  | cons part parts ih =>
    have hpart : part ≠ ".." := fun he => hup (he ▸ List.mem_cons_self)
    have hparts : ".." ∉ parts := fun hm => hup (List.mem_cons_of_mem _ hm)
    rw [walk_cons]
    rcases enter_cases d' here with hd | ⟨_, id, hid⟩ | ⟨hd, _⟩
    · rw [hd]
      dsimp only
      cases hnext : onward? here part with
      | none => exact Or.inr (Or.inr ⟨rfl, part, List.mem_cons_self, onward_length hnext⟩)
      | some next =>
        have hbelow : ∀ below, d.node? (next ++ below) = none := by
          intro below
          rw [onward_down hpart hnext, List.append_assoc]
          exact hn _
        exact (ih hparts hbelow).imp_right (Or.imp_right (And.imp_right HasLongPart.cons))
    · -- A file would have been there before.
      have hold := (h.file here id).mp hid
      rw [← List.append_nil here, hn] at hold
      cases hold
    · rw [hd]
      exact Or.inr (Or.inl rfl)

theorem Grown.walk_missing (h : Grown d d') (ht : d.IsTree) {here : Place} {parts : List String}
    (hup : ".." ∉ parts) (hw : d.walk here parts = .error .notFound) :
    (∃ p, d'.walk here parts = .ok p ∧ d.node? p = none) ∨ d'.walk here parts = .error .notFound ∨
      d'.walk here parts = .error .nameTooLong ∧ HasLongPart parts := by
  induction parts generalizing here with
  | nil => cases hw
  | cons part parts ih =>
    rw [walk_cons] at hw
    rcases enter_cases d here with hd | ⟨hd, _⟩ | ⟨_, hn⟩
    · rw [hd] at hw
      dsimp only at hw
      rw [walk_cons, enter_ok_iff.mpr (h.directory here (enter_ok_iff.mp hd))]
      dsimp only
      cases hnext : onward? here part with
      | none =>
        simp only [hnext] at hw
        cases hw
      | some next =>
        simp only [hnext] at hw
        exact (ih (fun hm => hup (List.mem_cons_of_mem _ hm)) hw).imp_right
          (Or.imp_right (And.imp_right HasLongPart.cons))
    · rw [hd] at hw
      cases hw
    · exact h.walk_new hup (ht.nothing_below hn)

theorem locate_of_speakable {path : String} (h : Speakable path) (d : Disk) :
    d.locate path = d.walk (d.start path) (Path.parts path) := by
  obtain ⟨hn, hz, hl⟩ := h
  rw [locate, if_neg (by simp [hn]), if_neg (by simp [hz]), if_neg (Nat.not_le_of_lt hl)]
  rfl

/-- A path that cannot be spoken is refused by every disk. -/
theorem locate_of_not_speakable {path : String} (h : ¬ Speakable path) (d d' : Disk) :
    d'.locate path = d.locate path := by
  unfold locate
  split
  · rfl
  rename_i hn
  split
  · rfl
  rename_i hz
  split
  · rfl
  rename_i hl
  exact absurd ⟨by simpa using hn, by simpa using hz, Nat.lt_of_not_le hl⟩ h

/-- A path that leads somewhere leads there later; one that is refused is refused in the same way,
unless something is missing on it. -/
theorem Grown.locate_eq (h : Grown d d') {path : String}
    (hl : d.locate path ≠ .error .notFound) : d'.locate path = d.locate path := by
  by_cases hs : Speakable path
  · have hstart : d'.start path = d.start path := by rw [start, start, h.workDir]
    rw [locate_of_speakable hs] at hl ⊢
    rw [locate_of_speakable hs, hstart]
    cases hw : d.walk (d.start path) (Path.parts path) with
    | ok p => exact walk_keeps h.directory hw
    | error e =>
      refine h.walk_refused hw ?_
      rintro rfl
      exact hl hw
  · exact locate_of_not_speakable hs d d'

theorem find_eq {path : String} (d : Disk) : d.find path = match d.locate path with
    | .error e => .error e
    | .ok p => match d.node? p with
      | some n => .ok n
      | none => .error .notFound := by
  unfold find
  cases d.locate path with
  | error e => rfl
  | ok p =>
    simp only [bind, Except.bind]
    cases d.node? p <;> rfl

/-- What is found is found later as well, and what is refused is refused later. Only where something
was missing on the way may a name be refused for its length, if the path has such a name and nothing
is made where it ends. -/
theorem Grown.find_cases (h : Grown d d') (ht : d.IsTree) {path : String}
    (hup : ".." ∉ Path.parts path)
    (hend : ∀ p, d'.locate path = .ok p → d.node? p = none → d'.node? p = none) :
    d'.find path = d.find path ∨ d.find path = .error .notFound ∧
      d'.find path = .error .nameTooLong ∧ HasLongPart (Path.parts path) := by
  by_cases hl : d.locate path = .error .notFound
  · have hmiss : d.find path = .error .notFound := by rw [find_eq, hl]
    by_cases hs : Speakable path
    · have hstart : d'.start path = d.start path := by rw [start, start, h.workDir]
      rw [locate_of_speakable hs] at hl
      have hlater := h.walk_missing ht hup hl
      rw [← hstart, ← locate_of_speakable hs] at hlater
      rw [hmiss, find_eq]
      rcases hlater with ⟨p, hp, hn⟩ | hp | ⟨hp, hlong⟩
      · simp [hp, hend p hp hn]
      · simp [hp]
      · simp [hp, hlong]
    · rw [find_eq, find_eq, locate_of_not_speakable hs d d', hl]
      exact Or.inl rfl
  · left
    have hsame := h.locate_eq hl
    rw [find_eq, find_eq, hsame]
    cases hp : d.locate path with
    | error e => rfl
    | ok p =>
      dsimp only
      cases hn : d.node? p with
      | none => rw [hend p (hsame.trans hp) hn]
      | some n =>
        cases n with
        | directory => rw [h.directory p hn]
        | file id => rw [(h.file p id).mpr hn]

theorem readText_eq {path : String} (d : Disk) : d.readText path = match d.find path with
    | .error e => .error e
    | .ok .directory => .error .isDirectory
    | .ok (.file id) => match Text.ofUtf8? (((d.files[id]?).map File.content).getD []) with
      | some text => .ok text
      | none => .error .notUtf8 := by
  unfold readText read
  cases d.find path with
  | error e => rfl
  | ok n =>
    cases n with
    | directory => rfl
    | file id =>
      simp only [bind, Except.bind, pure, Except.pure]
      cases Text.ofUtf8? (((d.files[id]?).map File.content).getD []) <;> rfl

/-- A path at which the same is read later, unless it has a name that is too long: then what was
missed for want of a directory may be refused. -/
def KeepsText (d d' : Disk) (path : String) : Prop :=
  d'.readText path = d.readText path ∨ d.readText path = .error .notFound ∧
    d'.readText path = .error .nameTooLong ∧ HasLongPart (Path.parts path)

theorem Grown.keepsText (h : Grown d d') (ht : d.IsTree) {path : String}
    (hup : ".." ∉ Path.parts path)
    (hend : ∀ p, d'.locate path = .ok p → d.node? p = none → d'.node? p = none) :
    KeepsText d d' path := by
  unfold KeepsText
  rw [readText_eq, readText_eq, h.files]
  rcases h.find_cases ht hup hend with hf | ⟨hf, hf', hlong⟩
  · rw [hf]
    exact Or.inl rfl
  · rw [hf, hf']
    exact Or.inr ⟨rfl, rfl, hlong⟩

/-- What is read at a path depends on the place that it leads to and on what is there. -/
theorem readText_congr {path : String} (hl : d'.locate path = d.locate path)
    (hp : ∀ p, d.locate path = .ok p → d'.node? p = d.node? p ∧ d'.file? p = d.file? p) :
    d'.readText path = d.readText path := by
  rw [readText_eq, readText_eq, find_eq, find_eq, hl]
  cases hat : d.locate path with
  | error e => rfl
  | ok p =>
    obtain ⟨hnode, hfile⟩ := hp p hat
    dsimp only
    cases hn : d.node? p with
    | none => rw [hnode, hn]
    | some n =>
      rw [hnode, hn]
      cases n with
      | directory => rfl
      | file id =>
        simp only [file?, hnode, hn] at hfile
        simp only [hfile]

/-- All directories that are new lie near the root. -/
def NewWithin (depth : Nat) (d d' : Disk) : Prop :=
  ∀ p, d'.node? p = some .directory → d.node? p = some .directory ∨ p.length ≤ depth

/-- A disk later on, with directories more that lie near the root. -/
structure GrownWithin (depth : Nat) (d d' : Disk) : Prop where
  grown : Grown d d'
  new : NewWithin depth d d'

theorem GrownWithin.refl (depth : Nat) (d : Disk) : GrownWithin depth d d :=
  ⟨.refl d, fun _ h => Or.inl h⟩

theorem GrownWithin.trans {depth : Nat} {d'' : Disk} (h : GrownWithin depth d d')
    (h' : GrownWithin depth d' d'') : GrownWithin depth d d'' where
  grown := h.grown.trans h'.grown
  new p hp := (h'.new p hp).elim (h.new p) Or.inr

/-- The depth that a path leads down to. -/
def depth (d : Disk) (path : String) : Nat := (d.start path).length + (Path.names path).length

theorem locate_depth {path : String} {p : Place} (hup : ".." ∉ Path.parts path)
    (h : d.locate path = .ok p) : p.length = d.depth path := by
  obtain ⟨_, hw⟩ := locate_ok_iff.mp h
  rw [walk_down hup hw, List.length_append]
  rfl

/-- The slashes at the end of a path lead no deeper, and they hide no step up. -/
theorem depth_unslashed {path : String} (h : path.toList ≠ []) (d : Disk) :
    d.depth (Path.unslashed path) = d.depth path ∧
      (".." ∈ Path.parts (Path.unslashed path) → ".." ∈ Path.parts path) := by
  obtain ⟨n, hp, hu⟩ := Path.unslashed_append h
  obtain ⟨m, hparts⟩ := Path.unslashed_parts h
  refine ⟨?_, fun hup => hparts ▸ List.mem_append_left _ hup⟩
  have hblank : (List.replicate m "").filter (fun p => p != "" && p != ".") = [] := by
    simp
  rw [depth, depth, start_eq_of_front d hp hu, Path.names, Path.names, hparts, List.filter_append,
    hblank, List.append_nil]

theorem makeDirectory_within {path : String} {depth : Nat} (hup : ".." ∉ Path.parts path)
    (hd : d.depth path ≤ depth) : GrownWithin depth d (run (makeDirectory path) d).2 := by
  refine ⟨makeDirectory_grown path d, ?_⟩
  rw [run_makeDirectory]
  cases hl : d.locate (Path.unslashed path) with
  | error e => exact fun p hp => Or.inl hp
  | ok q =>
    dsimp only
    cases hn : d.node? q with
    | some n => exact fun p hp => Or.inl hp
    | none =>
      have hne : path.toList ≠ [] := by
        intro hempty
        have hu : Path.unslashed path = "" := by
          rw [String.toList_eq_nil_iff.mp hempty]
          decide
        rw [hu] at hl
        cases hl
      obtain ⟨hdepth, hunslashed⟩ := depth_unslashed hne d
      intro p hp
      by_cases hpq : p = q
      · right
        have hlength := (locate_depth (fun h => hup (hunslashed h)) hl).trans hdepth
        exact hpq ▸ Nat.le_trans (Nat.le_of_eq hlength) hd
      · rw [node_put_ne _ hpq] at hp
        exact Or.inl hp

end SignedConsole.Disk

namespace SignedConsole.Path

theorem names_are_names {path name : String} (h : name ∈ names path) : IsName name := by
  obtain ⟨hpart, hname⟩ := List.mem_filter.mp h
  obtain ⟨piece, hpiece, rfl⟩ := List.mem_map.mp hpart
  refine ⟨?_, ?_⟩
  · rintro hempty
    rw [String.toList_eq_nil_iff.mp hempty] at hname
    exact absurd hname (by decide)
  · rw [String.toList_ofList]
    exact Text.splitWith_free hpiece

theorem names_join (base : String) {name : String} (hn : IsName name) (hp : name ≠ ".") :
    names (join base name) = names base ++ [name] := by
  have hne : name ≠ "" := fun he => hn.1 (String.toList_eq_nil_iff.mpr he)
  obtain ⟨above, hparts, ⟨hb, rfl⟩ | ⟨_, hb⟩⟩ := parts_join base
  · rw [names, names, hparts name hn, String.isEmpty_iff.mp hb]
    simp [hne, hp, parts, Text.splitWith]
  · have habove : names base = above.filter fun p => p != "" && p != "." := by
      rcases hb with hb | hb <;> simp [names, hb]
    rw [habove, names, hparts name hn, List.filter_append]
    simp [hne, hp]

theorem parts_join_up {base name : String} (hn : IsName name) (hp : name ≠ "..")
    (hup : ".." ∉ parts base) : ".." ∉ parts (join base name) := by
  obtain ⟨above, hparts, ⟨_, rfl⟩ | ⟨_, hb⟩⟩ := parts_join base
  · simpa [hparts name hn] using hp.symm
  · have habove : ".." ∉ above := by
      rcases hb with hb | hb
      · rwa [hb] at hup
      · exact fun h => hup (hb ▸ List.mem_append_left _ h)
    simpa [hparts name hn, habove] using hp.symm

theorem parts_joined {names : List String} (hn : ∀ name ∈ names, IsName name) (hne : names ≠ []) :
    parts (String.intercalate "/" names) = names := by
  induction names with
  | nil => exact absurd rfl hne
  | cons name names ih =>
    have hname := hn name List.mem_cons_self
    cases names with
    | nil => rw [String.intercalate_singleton, hname.parts]
    | cons next names =>
      have htail := ih (fun n h => hn n (List.mem_cons_of_mem _ h)) (by simp)
      have hjoined : (String.intercalate "/" (name :: next :: names)).toList =
          name.toList ++ '/' :: (String.intercalate "/" (next :: names)).toList := by
        simp [String.intercalate_cons_cons]
      rw [parts] at htail
      rw [parts, hjoined, Text.splitWith_append _ (by rfl), Text.splitWith_none hname.2,
        List.map_append, htail]
      simp

/-- The parts of a path that is put together from names are these names, behind an empty one where
it starts at the root. -/
theorem parts_ofNames {names : List String} (hn : ∀ name ∈ names, IsName name) (absolute : Bool) :
    parts (ofNames absolute names) =
      (if absolute then [""] else []) ++ if names = [] then [""] else names := by
  have hjoined : parts (String.intercalate "/" names) = if names = [] then [""] else names := by
    split
    · rename_i hempty
      rw [hempty]
      rfl
    · rename_i hne
      exact parts_joined hn hne
  cases absolute with
  | false => simpa [ofNames] using hjoined
  | true =>
    have hchars : (ofNames true names).toList = '/' :: (String.intercalate "/" names).toList := by
      rw [ofNames, if_pos rfl, String.toList_append]
      rfl
    rw [parts] at hjoined
    rw [parts, hchars, ← List.nil_append ('/' :: _), Text.splitWith_append _ (by rfl),
      List.map_append, hjoined]
    rfl

/-- The paths above a directory lead no deeper than it does, and take no step up if it takes
none. -/
theorem upward_shallow {dir path : String} (hup : ".." ∉ parts dir) (hm : path ∈ upward dir)
    (hne : path.isEmpty = false) :
    ".." ∉ parts path ∧ ∀ d : Disk, d.depth path ≤ d.depth dir := by
  rcases List.mem_cons.mp hm with rfl | hm
  · exact ⟨hup, fun d => Nat.le_refl _⟩
  obtain ⟨i, _, rfl⟩ := List.mem_map.mp hm
  generalize hns : (names dir).take i = ns at hne ⊢
  have hmem : ∀ name ∈ ns, name ∈ names dir := fun name h => List.mem_of_mem_take (hns ▸ h)
  have hname : ∀ name ∈ ns, IsName name := fun name h => names_are_names (hmem name h)
  have hparts := parts_ofNames hname (isAbsolute dir)
  have hnames : names (ofNames (isAbsolute dir) ns) = ns := by
    have hkept : ns.filter (fun p => p != "" && p != ".") = ns :=
      List.filter_eq_self.mpr fun name h => (List.mem_filter.mp (hmem name h)).2
    rw [names, hparts, List.filter_append]
    cases isAbsolute dir <;> cases ns <;> simp_all
  have habsolute : isAbsolute (ofNames (isAbsolute dir) ns) = isAbsolute dir := by
    cases ha : isAbsolute dir with
    | true => simp [ofNames, isAbsolute]
    | false =>
      rw [ha] at hparts hne
      cases ns with
      | nil => exact absurd hne (by decide)
      | cons name rest =>
        obtain ⟨c, cs, hc⟩ := List.exists_cons_of_ne_nil (hname name List.mem_cons_self).1
        have hslash := (hname name List.mem_cons_self).2 c (hc ▸ List.mem_cons_self)
        cases rest <;> simp_all [ofNames, isAbsolute, String.intercalate_cons_cons]
  refine ⟨fun h => hup ?_, fun d => ?_⟩
  · rw [hparts] at h
    have hns' : ".." ∈ ns := by
      cases isAbsolute dir <;> cases ns <;> simp_all
    exact (List.mem_filter.mp (hmem _ hns')).1
  · rw [Disk.depth, Disk.depth, Disk.start, Disk.start, habsolute, hnames, ← hns,
      List.length_take]
    omega

end SignedConsole.Path
