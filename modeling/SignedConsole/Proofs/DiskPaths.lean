import SignedConsole.Proofs.TextPieces
import SignedConsole.Storage.Disk

namespace SignedConsole

namespace Path

/-- Texts that are the name of one thing: not empty, and without a slash. -/
def IsName (name : String) : Prop := name.toList ≠ [] ∧ ∀ c ∈ name.toList, (c == '/') = false

theorem IsName.relative {name : String} (h : IsName name) : isAbsolute name = false := by
  obtain ⟨hne, hall⟩ := h
  unfold isAbsolute
  cases hc : name.toList with
  | nil => exact absurd hc hne
  | cons c cs =>
    have := hall c (hc ▸ List.mem_cons_self)
    simpa using this

theorem IsName.parts {name : String} (h : IsName name) : parts name = [name] := by
  simp [Path.parts, Text.splitWith_none h.2]

theorem endsWithSlash_iff {path : String} :
    endsWithSlash path = true ↔ ∃ cs, path.toList = cs ++ ['/'] := by
  rw [endsWithSlash, beq_iff_eq, List.getLast?_eq_some_iff]

/-- What is put behind a base becomes its last part. The parts before it are those of the base, but
for the empty one behind a slash at its end. -/
theorem parts_join (base : String) : ∃ above,
    (∀ name, IsName name → parts (join base name) = above ++ [name]) ∧
    (base.isEmpty = true ∧ above = [] ∨
      base.isEmpty = false ∧ (parts base = above ∨ parts base = above ++ [""])) := by
  cases hb : base.isEmpty with
  | true =>
    refine ⟨[], fun name hn => ?_, Or.inl ⟨rfl, rfl⟩⟩
    rw [join, hb, Bool.or_true, if_pos rfl, hn.parts, List.nil_append]
  | false =>
    cases hs : endsWithSlash base with
    | true =>
      obtain ⟨cs, hc⟩ := endsWithSlash_iff.mp hs
      refine ⟨(Text.splitWith (· == '/') cs).map String.ofList, fun name hn => ?_,
        Or.inr ⟨rfl, Or.inr ?_⟩⟩
      · simp [join, hn.relative, hb, hs, parts, hc, Text.splitWith_append,
          Text.splitWith_none hn.2]
      · simp [parts, hc, Text.splitWith_append, Text.splitWith]
    | false =>
      refine ⟨parts base, fun name hn => ?_, Or.inr ⟨rfl, Or.inl rfl⟩⟩
      simp [join, hn.relative, hb, hs, parts, Text.splitWith_append, Text.splitWith_none hn.2]

theorem join_append (base : String) {name : String} (h : IsName name) :
    ∃ more, (join base name).toList = base.toList ++ more := by
  unfold join
  rw [h.relative, Bool.false_or]
  split
  · rename_i hb
    exact ⟨name.toList, by simp [String.isEmpty_iff.mp hb]⟩
  split
  · exact ⟨name.toList, by simp⟩
  · exact ⟨"/".toList ++ name.toList, by simp⟩

theorem join_ends (base : String) {name : String} (h : IsName name) :
    ∃ front, (join base name).toList = front ++ name.toList := by
  unfold join
  rw [h.relative, Bool.false_or]
  split
  · exact ⟨[], rfl⟩
  split
  · exact ⟨base.toList, by simp⟩
  · exact ⟨base.toList ++ "/".toList, by simp⟩

/-- What is put behind a base starts where the base starts. -/
theorem join_absolute (base : String) {name : String} (h : IsName name) :
    isAbsolute (join base name) = isAbsolute base := by
  cases hb : base.toList with
  | nil =>
    have hempty : base = "" := String.toList_eq_nil_iff.mp hb
    rw [join, h.relative, hempty]
    exact h.relative
  | cons c cs =>
    obtain ⟨more, hm⟩ := join_append base h
    rw [isAbsolute, isAbsolute, hm, hb]
    rfl

/-- A name with an ending goes behind a base like the name, with the ending at the end. -/
theorem join_ending (base : String) {name ending : String} (h : IsName name)
    (he : IsName (name ++ ending)) : join base (name ++ ending) = join base name ++ ending := by
  unfold join
  rw [h.relative, he.relative, Bool.false_or]
  split
  · rfl
  split
  · rw [String.append_assoc]
  · rw [String.append_assoc, String.append_assoc, String.append_assoc]

/-- A path is its unslashed form with slashes behind it. -/
theorem unslashed_append {path : String} (h : path.toList ≠ []) :
    ∃ n, path.toList = (unslashed path).toList ++ List.replicate n '/' ∧
      (unslashed path).toList ≠ [] := by
  have hsplit := List.takeWhile_append_dropWhile (p := (· == '/')) (l := path.toList.reverse)
  have hslashes : ∀ c ∈ path.toList.reverse.takeWhile (· == '/'), c = '/' := fun c hc =>
    eq_of_beq (List.all_eq_true.mp List.all_takeWhile c hc)
  generalize hs : path.toList.reverse.takeWhile (· == '/') = slashes at hsplit hslashes
  generalize hf : path.toList.reverse.dropWhile (· == '/') = front at hsplit
  have hpath : path.toList = front.reverse ++ List.replicate slashes.length '/' := by
    rw [← List.reverse_reverse path.toList, ← hsplit, List.reverse_append,
      List.eq_replicate_of_mem hslashes, List.reverse_replicate, List.length_replicate]
  unfold unslashed
  simp only [hf]
  cases front with
  | cons c cs => exact ⟨slashes.length, by simpa using hpath, by simp⟩
  | nil =>
    rw [List.reverse_nil, List.nil_append] at hpath
    cases hn : slashes.length with
    | zero => exact absurd (by simpa [hn] using hpath) h
    | succ n =>
      rw [hn, List.replicate_succ] at hpath
      exact ⟨n, by simp [isAbsolute, hpath], by simp [isAbsolute, hpath]⟩

theorem unslashed_parts {path : String} (h : path.toList ≠ []) :
    ∃ n, parts path = parts (unslashed path) ++ List.replicate n "" := by
  obtain ⟨n, hp, _⟩ := unslashed_append h
  have hmore : ∀ n cs, Text.splitWith (· == '/') (cs ++ List.replicate n '/') =
      Text.splitWith (· == '/') cs ++ List.replicate n [] := by
    intro n
    induction n with
    | zero => simp
    | succ n ih =>
      intro cs
      rw [List.replicate_succ', ← List.append_assoc, Text.splitWith_append _ (by rfl), ih,
        List.replicate_succ', List.append_assoc]
      rfl
  exact ⟨n, by simp [parts, hp, hmore]⟩

/-- A path without a slash at its end is its own unslashed form. -/
theorem unslashed_of_last {path : String} {c : Char} (h : path.toList.getLast? = some c)
    (hc : c ≠ '/') : unslashed path = path := by
  obtain ⟨cs, hp⟩ := List.getLast?_eq_some_iff.mp h
  have hdrop : path.toList.reverse.dropWhile (· == '/') = path.toList.reverse := by
    simp [hp, hc]
  simp only [unslashed, hdrop, List.reverse_reverse, String.ofList_toList]
  simp [hp]

end Path

namespace Disk

theorem enter_ok_iff {d : Disk} {here : Place} :
    d.enter here = .ok () ↔ d.node? here = some .directory := by
  unfold enter
  cases d.node? here with
  | none => simp
  | some n => cases n <;> simp

/-- Where a part leads from a directory. -/
def onward? (here : Place) (part : String) : Option Place :=
  if part == "" || part == "." then some here
  else if part == ".." then some here.dropLast
  else if nameLimit < (Text.utf8 part).length then none
  else some (here ++ [part])

theorem walk_cons_ok_iff {d : Disk} {here p : Place} {part : String} {parts : List String} :
    d.walk here (part :: parts) = .ok p ↔ d.node? here = some .directory ∧
      ∃ next, onward? here part = some next ∧ d.walk next parts = .ok p := by
  rw [walk, ← enter_ok_iff]
  cases d.enter here with
  | error e => simp [bind, Except.bind]
  | ok _ =>
    simp only [bind, Except.bind, onward?, true_and]
    split
    · simp
    split
    · simp
    split <;> simp [throw, throwThe, MonadExceptOf.throw]

theorem walk_append_ok_iff {d : Disk} {here p : Place} {front back : List String} :
    d.walk here (front ++ back) = .ok p ↔
      ∃ next, d.walk here front = .ok next ∧ d.walk next back = .ok p := by
  induction front generalizing here with
  | nil => simp [walk]
  | cons part front ih =>
    rw [List.cons_append, walk_cons_ok_iff]
    constructor
    · rintro ⟨hd, next, hn, hw⟩
      obtain ⟨last, hf, hb⟩ := ih.mp hw
      exact ⟨last, walk_cons_ok_iff.mpr ⟨hd, next, hn, hf⟩, hb⟩
    · rintro ⟨last, hf, hb⟩
      obtain ⟨hd, next, hn, hw⟩ := walk_cons_ok_iff.mp hf
      exact ⟨hd, next, hn, ih.mpr ⟨last, hw, hb⟩⟩

theorem walk_blanks {d : Disk} {here p : Place} {n : Nat}
    (h : d.walk here (List.replicate n "") = .ok p) : p = here := by
  induction n with
  | zero => exact (Except.ok.inj h).symm
  | succ n ih =>
    obtain ⟨_, next, hn, hw⟩ := walk_cons_ok_iff.mp h
    cases hn
    exact ih hw

/-- Whatever happens to files, a path that leads somewhere keeps leading there. -/
theorem walk_keeps {d d' : Disk}
    (hd : ∀ p, d.node? p = some .directory → d'.node? p = some .directory) {here p : Place}
    {parts : List String} (h : d.walk here parts = .ok p) : d'.walk here parts = .ok p := by
  induction parts generalizing here with
  | nil => exact h
  | cons part parts ih =>
    obtain ⟨he, next, hn, hw⟩ := walk_cons_ok_iff.mp h
    exact walk_cons_ok_iff.mpr ⟨hd here he, next, hn, ih hw⟩

/-- What the text of a path must be like to lead anywhere. -/
structure Speakable (path : String) : Prop where
  nonempty : path.isEmpty = false
  noNul : (path.toList.any fun c => c.toNat == 0) = false
  short : (Text.utf8 path).length < pathLimit

/-- Where a path starts. -/
def start (d : Disk) (path : String) : Place := if Path.isAbsolute path then [] else d.workDir

/-- A path that another goes on from can be spoken if that one can. -/
theorem Speakable.front {path whole : String} {more : List Char} (h : Speakable whole)
    (hp : whole.toList = path.toList ++ more) (hn : path.toList ≠ []) : Speakable path := by
  obtain ⟨_, hz, hl⟩ := h
  refine ⟨by simpa using hn, ?_, ?_⟩
  · rw [hp, List.any_append, Bool.or_eq_false_iff] at hz
    exact hz.1
  · simp only [Text.utf8, hp, List.flatMap_append, List.length_append] at hl ⊢
    omega

theorem start_eq_of_front {path whole : String} {more : List Char} (d : Disk)
    (hp : whole.toList = path.toList ++ more) (hn : path.toList ≠ []) :
    d.start whole = d.start path := by
  unfold start Path.isAbsolute
  cases hc : path.toList with
  | nil => exact absurd hc hn
  | cons c cs => rw [hp, hc, List.cons_append, List.head?_cons, List.head?_cons]

theorem locate_ok_iff {d : Disk} {path : String} {p : Place} :
    d.locate path = .ok p ↔
      Speakable path ∧ d.walk (d.start path) (Path.parts path) = .ok p := by
  unfold locate
  constructor
  · intro h
    split at h
    · cases h
    rename_i hn
    split at h
    · cases h
    rename_i hz
    split at h
    · cases h
    rename_i hl
    exact ⟨⟨by simpa using hn, by simpa using hz, Nat.lt_of_not_le hl⟩, h⟩
  · rintro ⟨⟨hn, hz, hl⟩, hw⟩
    rw [if_neg (by simp [hn]), if_neg (by simp [hz]), if_neg (Nat.not_le_of_lt hl)]
    exact hw

theorem locate_keeps {d d' : Disk} (hw : d'.workDir = d.workDir)
    (hd : ∀ p, d.node? p = some .directory → d'.node? p = some .directory) {path : String}
    {p : Place} (h : d.locate path = .ok p) : d'.locate path = .ok p := by
  obtain ⟨hs, h⟩ := locate_ok_iff.mp h
  refine locate_ok_iff.mpr ⟨hs, ?_⟩
  rw [start, hw]
  exact walk_keeps hd h

theorem locate_unslashed {d : Disk} {path : String} {p : Place} (h : d.locate path = .ok p) :
    d.locate (Path.unslashed path) = .ok p := by
  obtain ⟨hs, hw⟩ := locate_ok_iff.mp h
  have hne : path.toList ≠ [] := by simpa using hs.nonempty
  obtain ⟨n, hp, hu⟩ := Path.unslashed_append hne
  obtain ⟨m, hparts⟩ := Path.unslashed_parts hne
  rw [hparts, walk_append_ok_iff] at hw
  obtain ⟨next, hfront, hback⟩ := hw
  cases walk_blanks hback
  exact locate_ok_iff.mpr ⟨hs.front hp hu, start_eq_of_front d hp hu ▸ hfront⟩

/-- What is found in a directory is found because there is the directory. -/
theorem locate_base {d : Disk} {base name : String} {p : Place} (hn : Path.IsName name)
    (h : d.locate (Path.join base name) = .ok p) : base.isEmpty = true ∨
      ∃ here, d.locate base = .ok here ∧ d.node? here = some .directory := by
  obtain ⟨above, hparts, hbase⟩ := Path.parts_join base
  rcases hbase with ⟨hb, _⟩ | ⟨hb, hbase⟩
  · exact Or.inl hb
  right
  obtain ⟨hs, hw⟩ := locate_ok_iff.mp h
  have hne : base.toList ≠ [] := by simpa using hb
  obtain ⟨more, hp⟩ := Path.join_append base hn
  rw [hparts name hn, walk_append_ok_iff, start_eq_of_front d hp hne] at hw
  obtain ⟨here, hfront, hlast⟩ := hw
  have hd := (walk_cons_ok_iff.mp hlast).1
  refine ⟨here, locate_ok_iff.mpr ⟨hs.front hp hne, ?_⟩, hd⟩
  rcases hbase with hbase | hbase
  · rw [hbase]
    exact hfront
  · rw [hbase, walk_append_ok_iff]
    exact ⟨here, hfront, walk_cons_ok_iff.mpr ⟨hd, here, rfl, rfl⟩⟩

/-- A name of a file, short enough and no point: it leads from a directory to what lies in it. -/
def Fits (name : String) : Prop := Path.IsName name ∧ ∀ here, onward? here name = some (here ++ [name])

/-- Names in one directory lead to places beside each other, as far as their paths can be spoken. -/
theorem locate_beside {d : Disk} {base name other : String} {p : Place} (hn : Fits name)
    (ho : Fits other) (hs : Speakable (Path.join base other))
    (h : d.locate (Path.join base name) = .ok p) : ∃ here, p = here ++ [name] ∧
      d.locate (Path.join base other) = .ok (here ++ [other]) := by
  obtain ⟨above, hparts, _⟩ := Path.parts_join base
  obtain ⟨_, hw⟩ := locate_ok_iff.mp h
  rw [hparts name hn.1, walk_append_ok_iff] at hw
  obtain ⟨here, hfront, hlast⟩ := hw
  obtain ⟨hd, next, hnext, hp⟩ := walk_cons_ok_iff.mp hlast
  rw [hn.2 here] at hnext
  cases hnext
  cases hp
  refine ⟨here, rfl, locate_ok_iff.mpr ⟨hs, ?_⟩⟩
  have hstart : d.start (Path.join base other) = d.start (Path.join base name) := by
    rw [start, start, Path.join_absolute base ho.1, Path.join_absolute base hn.1]
  rw [hparts other ho.1, walk_append_ok_iff, hstart]
  exact ⟨here, hfront, walk_cons_ok_iff.mpr ⟨hd, _, ho.2 here, rfl⟩⟩

end Disk
end SignedConsole
