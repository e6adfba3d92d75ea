import SignedConsole.Proofs.DirectoryGrowth

namespace SignedConsole

namespace Path

/-- A name that leads to what lies in a directory. -/
structure IsEntry (name : String) : Prop where
  isName : IsName name
  here : name ≠ "."
  above : name ≠ ".."

end Path

namespace Disk

variable {d d' : Disk}

theorem walk_append {here next : Place} {front : List String} (h : d.walk here front = .ok next)
    (back : List String) : d.walk here (front ++ back) = d.walk next back := by
  induction front generalizing here with
  | nil => rw [← Except.ok.inj h, List.nil_append]
  | cons part front ih =>
    obtain ⟨hd, between, hb, hw⟩ := walk_cons_ok_iff.mp h
    rw [List.cons_append, walk_cons, enter_ok_iff.mpr hd]
    simp only [hb]
    exact ih hw

theorem onward_entry {here next : Place} {name : String} (hn : Path.IsEntry name)
    (h : onward? here name = some next) : next = here ++ [name] := by
  rw [onward_down hn.above h]
  have hne : name ≠ "" := fun he => hn.isName.1 (String.toList_eq_nil_iff.mpr he)
  simp [hne, hn.here]

/-- The directory in which the path of an entry leads to it. -/
theorem locate_join {base : String} {p : Place} {name : String} (hn : Path.IsEntry name)
    (h : d.locate (Path.join base name) = .ok p) : ∃ above here,
      (∀ other, Path.IsName other → Path.parts (Path.join base other) = above ++ [other]) ∧
      d.walk (d.start (Path.join base name)) above = .ok here ∧
      d.node? here = some .directory ∧ p = here ++ [name] := by
  obtain ⟨above, hparts, _⟩ := Path.parts_join base
  obtain ⟨_, hw⟩ := locate_ok_iff.mp h
  rw [hparts name hn.isName, walk_append_ok_iff] at hw
  obtain ⟨here, hfront, hlast⟩ := hw
  obtain ⟨hd, next, hnext, hp⟩ := walk_cons_ok_iff.mp hlast
  refine ⟨above, here, hparts, hfront, hd, ?_⟩
  rw [← onward_entry hn hnext]
  exact (Except.ok.inj hp).symm

theorem start_join {base name other : String} (d : Disk) (hn : Path.IsName name)
    (ho : Path.IsName other) : d.start (Path.join base other) = d.start (Path.join base name) := by
  rw [start, start, Path.join_absolute base hn, Path.join_absolute base ho]

/-- Entries of one directory with different names have different places. -/
theorem locate_join_ne {base name other : String} {p q : Place} (hn : Path.IsEntry name)
    (ho : Path.IsEntry other) (hne : name ≠ other) (hp : d.locate (Path.join base name) = .ok p)
    (hq : d.locate (Path.join base other) = .ok q) : p ≠ q := by
  obtain ⟨above, here, hparts, hw, _, rfl⟩ := locate_join hn hp
  obtain ⟨above', here', hparts', hw', _, rfl⟩ := locate_join ho hq
  have habove : above' = above :=
    List.append_cancel_right ((hparts' name hn.isName).symm.trans (hparts name hn.isName))
  rw [habove, start_join d hn.isName ho.isName] at hw'
  cases hw.symm.trans hw'
  intro heq
  exact hne (List.singleton_inj.mp (List.append_cancel_left heq))

/-- In a directory that is there the path of an entry is taken in the same way by all disks with
the same directories, whether it is refused or not. -/
theorem SameDirectories.locate_beside (h : SameDirectories d d') {base name other : String}
    {p : Place} (hn : Path.IsEntry name) (ho : Path.IsName other)
    (hp : d.locate (Path.join base name) = .ok p) :
    d'.locate (Path.join base other) = d.locate (Path.join base other) := by
  by_cases hs : Speakable (Path.join base other)
  · obtain ⟨above, here, hparts, hw, hd, _⟩ := locate_join hn hp
    have hstart : d'.start (Path.join base other) = d.start (Path.join base other) := by
      rw [start, start, h.workDir]
    have hw' : d'.walk (d.start (Path.join base name)) above = .ok here :=
      walk_keeps (fun q => (h.node q).mpr) hw
    have hd' := (h.node here).mpr hd
    rw [locate_of_speakable hs, locate_of_speakable hs, hstart, hparts other ho,
      start_join d hn.isName ho, walk_append hw, walk_append hw', walk_cons, walk_cons,
      enter_ok_iff.mpr hd, enter_ok_iff.mpr hd']
    cases onward? here other <;> rfl
  · exact locate_of_not_speakable hs d d'

theorem Unlinked.grown (h : d.Unlinked) (hg : Grown d d') : d'.Unlinked :=
  ⟨hg.sound h.sound, fun p q id hp hq => h.single p q id ((hg.file p id).mp hp) ((hg.file q id).mp hq)⟩

/-- Disks that differ in one place only, and in no directory. -/
structure OnlyAt (p : Place) (d d' : Disk) : Prop where
  directories : SameDirectories d d'
  node : ∀ r, r ≠ p → d'.node? r = d.node? r
  file : ∀ r, r ≠ p → d'.file? r = d.file? r

theorem OnlyAt.refl (p : Place) (d : Disk) : OnlyAt p d d := ⟨.refl d, fun _ _ => rfl, fun _ _ => rfl⟩

theorem OnlyAt.trans {p : Place} {d'' : Disk} (h : OnlyAt p d d') (h' : OnlyAt p d' d'') :
    OnlyAt p d d'' where
  directories := h.directories.trans h'.directories
  node r hr := (h'.node r hr).trans (h.node r hr)
  file r hr := (h'.file r hr).trans (h.file r hr)

/-- Changing a file changes what its place holds. -/
theorem OnlyAt.modify {p : Place} {id : Nat} (h : d.Unlinked) (hp : d.node? p = some (.file id))
    (f : File → File) : OnlyAt p d { d with files := d.files.modify id f } where
  directories := (SameDirectories.refl d).files _
  node _ _ := rfl
  file r hr := by
    have hnode : node? { d with files := d.files.modify id f } r = d.node? r := rfl
    rw [file?, file?, hnode]
    cases hn : d.node? r with
    | none => rfl
    | some n =>
      cases n with
      | directory => rfl
      | file i =>
        have hi : id ≠ i := by
          rintro rfl
          exact hr (h.single r p id hn hp)
        exact List.getElem?_modify_ne _ _ hi

theorem Unlinked.modify (h : d.Unlinked) (id : Nat) (f : File → File) :
    Unlinked { d with files := d.files.modify id f } where
  sound e he i hi := by
    rw [List.length_modify]
    exact h.sound e he i hi
  single := h.single

/-- Beside the place that differs the same is read. -/
theorem OnlyAt.readText {base name other : String} {p : Place} (h : OnlyAt p d d')
    (hn : Path.IsEntry name) (ho : Path.IsEntry other) (hne : name ≠ other)
    (hp : d.locate (Path.join base name) = .ok p) :
    d'.readText (Path.join base other) = d.readText (Path.join base other) := by
  refine readText_congr (h.directories.locate_beside hn ho.isName hp) fun q hq => ?_
  have hqp : q ≠ p := (locate_join_ne hn ho hne hp hq).symm
  exact ⟨h.node q hqp, h.file q hqp⟩

theorem file_congr {p : Place} (hn : d'.node? p = d.node? p) (hf : d'.files = d.files) :
    d'.file? p = d.file? p := by
  rw [file?, file?, hn, hf]

/-- A disk that differs from another by a file in one place, and what the file holds. -/
structure Drafted (p : Place) (id : Nat) (content : Bytes) (d d' : Disk) : Prop where
  only : OnlyAt p d d'
  unlinked : d'.Unlinked
  node : d'.node? p = some (.file id)
  file : ∃ mode, d'.files[id]? = some ⟨mode, content⟩

theorem Drafted.modify {p : Place} {id : Nat} {b c : Bytes} (h : Drafted p id b d d')
    {f : File → File} (hf : ∀ mode, (f ⟨mode, b⟩).content = c) :
    Drafted p id c d { d' with files := d'.files.modify id f } where
  only := h.only.trans (.modify h.unlinked h.node f)
  unlinked := h.unlinked.modify id f
  node := h.node
  file := by
    obtain ⟨mode, hm⟩ := h.file
    refine ⟨(f ⟨mode, b⟩).mode, ?_⟩
    rw [List.getElem?_modify_eq, hm, ← hf mode]
    rfl

/-- A file that is there is emptied. -/
theorem Drafted.emptied {p : Place} {id : Nat} (h : d.Unlinked) (hn : d.node? p = some (.file id)) :
    Drafted p id [] d
      { d with files := d.files.modify id fun f => { f with content := [] } } where
  only := .modify h hn _
  unlinked := h.modify id _
  node := hn
  file := by
    have hid := h.sound.file hn
    exact ⟨d.files[id].mode, by simp [hid]⟩

/-- A file that is not there is new, so nothing else is it. -/
theorem Drafted.added {p : Place} (h : d.Unlinked) (hn : d.node? p = none) (mode : Nat) :
    Drafted p d.files.length [] d
      (({ d with files := d.files ++ [⟨mode, []⟩] } : Disk).put p (.file d.files.length)) := by
  have hfile : d.node? p ≠ some .directory := by simp [hn]
  have hsame : SameDirectories d { d with files := d.files ++ [⟨mode, []⟩] } :=
    (SameDirectories.refl d).files _
  have hself := node_put_self (d := { d with files := d.files ++ [⟨mode, []⟩] })
    (.file d.files.length) (ne_root hfile)
  have hother : ∀ r, r ≠ p → node? (({ d with files := d.files ++ [⟨mode, []⟩] } : Disk).put p
      (.file d.files.length)) r = d.node? r := fun r hr => node_put_ne _ hr
  refine ⟨⟨hsame.trans (.put _ hfile), hother, fun r hr => ?_⟩, ⟨?_, fun r q i hr hq => ?_⟩, hself,
    mode, by simp [put]⟩
  · rw [file?, file?, hother r hr]
    cases hold : d.node? r with
    | none => rfl
    | some n =>
      cases n with
      | directory => rfl
      | file i => exact List.getElem?_append_left (h.sound.file hold)
  · have hlonger : Sound { d with files := d.files ++ [⟨mode, []⟩] } := fun e he i hi => by
      rw [List.length_append]
      exact Nat.lt_add_right _ (h.sound e he i hi)
    exact hlonger.put (by rintro i ⟨⟩; simp)
  · -- Only the new place has the new number, the others have theirs from before.
    have hold : ∀ r, r ≠ p → node? (({ d with files := d.files ++ [⟨mode, []⟩] } : Disk).put p
        (.file d.files.length)) r ≠ some (.file d.files.length) := by
      intro r hr hn
      rw [hother r hr] at hn
      exact absurd (h.sound.file hn) (Nat.lt_irrefl _)
    by_cases hrp : r = p
    · subst hrp
      cases hself.symm.trans hr
      exact Decidable.byContradiction fun hqr => hold q (Ne.symm hqr) hq
    · by_cases hqp : q = p
      · subst hqp
        cases hself.symm.trans hq
        exact absurd hr (hold r hrp)
      · rw [hother r hrp] at hr
        rw [hother q hqp] at hq
        exact h.single r q i hr hq

/-- A file that is opened for writing is empty, and all other places are as they were. -/
theorem create_only {path : String} {mode : Nat} {open_ : Handle} (h : d.Unlinked)
    (hu : Path.unslashed path = path) (hc : run (create path mode) d = (.ok open_, d')) :
    ∃ p, d.locate path = .ok p ∧ open_.offset = 0 ∧ Drafted p open_.file [] d d' := by
  rw [run_create, hu] at hc
  cases hl : d.locate path with
  | error e => simp [hl] at hc
  | ok p =>
    cases hslash : Path.endsWithSlash path with
    | true => simp [hl, hslash] at hc
    | false =>
      simp only [hl, hslash, Bool.false_eq_true, ↓reduceIte] at hc
      cases hn : d.node? p with
      | none =>
        simp only [hn] at hc
        cases hc
        exact ⟨p, rfl, rfl, .added h hn _⟩
      | some n =>
        cases n with
        | directory =>
          simp only [hn] at hc
          cases hc
        | file id =>
          simp only [hn] at hc
          cases hc
          exact ⟨p, rfl, rfl, .emptied h hn⟩

/-- A file that gets another name leaves its old one, and takes the place of the file that had the
new one. -/
theorem rename_only {old new : String} {p q : Place} {id : Nat} (h : d.Unlinked)
    (hp : d.locate old = .ok p) (hq : d.locate new = .ok q) (hpq : p ≠ q)
    (hn : d.node? p = some (.file id)) (hr : run (rename old new) d = (.ok (), d')) :
    d'.Unlinked ∧ SameDirectories d d' ∧ d'.files = d.files ∧ d'.node? q = some (.file id) ∧
      d'.node? p = none ∧ ∀ r, r ≠ p → r ≠ q → d'.node? r = d.node? r := by
  obtain ⟨p', q', n, hp', hq', hn', hqn, rfl⟩ := rename_ok_iff.mp hr
  cases hp.symm.trans hp'
  cases hq.symm.trans hq'
  cases hn.symm.trans hn'
  have hpn : d.node? p ≠ some .directory := by
    rw [hn]
    nofun
  have hdrop : SameDirectories d (d.drop p) := .drop hpn
  have hqd : (d.drop p).node? q ≠ some .directory := fun hd => hqn ((hdrop.node q).mp hd)
  have hat : ((d.drop p).put q (.file id)).node? q = some (.file id) :=
    node_put_self _ (ne_root hqd)
  have hgone : ((d.drop p).put q (.file id)).node? p = none := by
    rw [node_put_ne _ hpq, node_drop_self (ne_root hpn)]
  have hother : ∀ r, r ≠ p → r ≠ q → ((d.drop p).put q (.file id)).node? r = d.node? r := by
    intro r hrp hrq
    rw [node_put_ne _ hrq, node_drop_ne hrp]
  -- Every name but the new one was there before, and the file has left its old one.
  have hbefore : ∀ r i, r ≠ q → ((d.drop p).put q (.file id)).node? r = some (.file i) →
      r ≠ p ∧ d.node? r = some (.file i) := by
    intro r i hrq hr
    by_cases hrp : r = p
    · rw [hrp, hgone] at hr
      cases hr
    · rw [hother r hrp hrq] at hr
      exact ⟨hrp, hr⟩
  refine ⟨⟨(h.sound.drop p).put (by rintro _ ⟨⟩; exact h.sound.file hn), fun r t i hr ht => ?_⟩,
    hdrop.trans (.put id hqd), rfl, hat, hgone, hother⟩
  by_cases hrq : r = q
  · by_cases htq : t = q
    · rw [hrq, htq]
    · subst hrq
      cases hat.symm.trans hr
      obtain ⟨htp, hold⟩ := hbefore t _ htq ht
      exact absurd (h.single t p _ hold hn) htp
  · obtain ⟨hrp, hold⟩ := hbefore r i hrq hr
    by_cases htq : t = q
    · subst htq
      cases hat.symm.trans ht
      exact absurd (h.single r p _ hold hn) hrp
    · exact h.single r t i hold (hbefore t i htq ht).2

end Disk
end SignedConsole
