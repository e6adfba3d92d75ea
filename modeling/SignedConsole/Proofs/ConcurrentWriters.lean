import SignedConsole.Proofs.InterruptedWrites

namespace SignedConsole

namespace Disk

/-- The bytes that are in a place. -/
def content? (d : Disk) (p : Place) : Option Bytes := (d.file? p).map File.content

theorem content_mode (d : Disk) (id mode : Nat) (p : Place) :
    content? { d with files := d.files.modify id fun f => { f with mode } } p = d.content? p := by
  have hnode : node? { d with files := d.files.modify id fun f => { f with mode } } p =
      d.node? p := rfl
  rw [content?, content?, file?, file?, hnode]
  cases d.node? p with
  | none => rfl
  | some n =>
    cases n with
    | directory => rfl
    | file i =>
      dsimp only
      rw [List.getElem?_modify]
      cases d.files[i]? with
      | none => simp
      | some f =>
        by_cases h : id = i
        · simp [h]
        · simp [h]

theorem Drafted.content {p : Place} {id : Nat} {content : Bytes} {d d' : Disk}
    (h : Drafted p id content d d') : d'.content? p = some content := by
  obtain ⟨mode, hfile⟩ := h.file
  rw [content?, file?, h.node]
  simp [hfile]

theorem content_none {d : Disk} (hs : d.Sound) {p : Place} (h : d.content? p = none) :
    d.node? p = none ∨ d.node? p = some .directory := by
  cases hn : d.node? p with
  | none => exact Or.inl rfl
  | some n =>
    cases n with
    | directory => exact Or.inr rfl
    | file id =>
      rw [content?, file?, hn] at h
      simp [List.getElem?_eq_getElem (hs.file hn)] at h

theorem drafted_self {p : Place} {id : Nat} {content : Bytes} {d : Disk} (hd : d.Unlinked)
    (hn : d.node? p = some (.file id)) (hc : d.content? p = some content) :
    Drafted p id content d d := by
  rw [content?, file?, hn] at hc
  obtain ⟨⟨mode, _⟩, hfile, rfl⟩ := Option.map_eq_some_iff.mp hc
  exact ⟨.refl p d, hd, hn, mode, hfile⟩

/-- What is written behind the end is put there. -/
theorem overwrite_end (old new : Bytes) : overwrite old old.length new = old ++ new := by
  simp [overwrite]

end Disk

namespace FileStorage

/-- A value, and the pieces in which its bytes are written. -/
structure Draft where
  value : String
  pieces : List Bytes
  whole : pieces.flatten = Text.utf8 value

namespace Draft

/-- A value that is written in one piece. -/
def one (value : String) : Draft := ⟨value, [Text.utf8 value], List.append_nil _⟩

/-- What is done with a draft that is open. -/
def openSteps (dir key : String) (pieces : List Bytes) : List Step :=
  pieces.map .write ++ [.sync, .rename (draftPath dir key) (path dir key)]

def steps (dir key : String) (draft : Draft) : List Step :=
  .makeDirectories dir :: .create (draftPath dir key) :: .restrict ::
    openSteps dir key draft.pieces

theorem one_steps (dir key value : String) :
    (one value).steps dir key = writeSteps dir key value := rfl

end Draft

/-- Writers on one disk: what each has left to do, its open file, and who has opened one last. -/
structure Race (ι : Type) where
  disk : Disk
  left : ι → List Step
  open? : ι → Option Handle
  opener : Option ι

/-- Steps that open the draft. -/
def Step.opens : Step → Bool
  | .create _ => true
  | _ => false

/-- Steps that change the draft, or what is under the key. -/
def Step.puts : Step → Bool
  | .write _ | .rename _ _ => true
  | _ => false

namespace Race

variable [DecidableEq ι]

/-- A writer goes on, with what it has open and has left to do. -/
def go (race : Race ι) (who : ι) (disk : Disk) (open? : Option Handle) (left : List Step) :
    Race ι where
  disk
  left i := if i = who then left else race.left i
  open? i := if i = who then open? else race.open? i
  opener := race.opener

/-- A writer does its next step. It gives up where that fails. -/
def play (race : Race ι) (who : ι) : Race ι :=
  match race.left who with
  | [] => race
  | step :: left =>
    match Disk.run (step.run (race.open? who)) race.disk with
    | (.ok open?, disk) =>
      { race.go who disk open? left with opener := if step.opens then some who else race.opener }
    | (.error _, disk) => race.go who disk none []

/-- All writers are about to start. -/
def begin (dir key : String) (disk : Disk) (draft : ι → Draft) : Race ι where
  disk
  left i := (draft i).steps dir key
  open? _ := none
  opener := none

/-- Turns in which nothing is written or renamed but by the writer who has opened the draft last. -/
def orderly (race : Race ι) : List ι → Bool
  | [] => true
  | who :: turns =>
    (!(race.left who).head?.any Step.puts || race.opener == some who) &&
      (race.play who).orderly turns

end Race

/-- How far a writer has got: what is left, its open file, and the file of its draft with what it
has put there. -/
inductive Stand (dir key : String) (draft : Draft) :
    List Step → Option Handle → Option (Nat × Bytes) → Prop
  | new : Stand dir key draft (draft.steps dir key) none none
  | made : Stand dir key draft (.create (draftPath dir key) :: .restrict ::
      Draft.openSteps dir key draft.pieces) none none
  | opened (id : Nat) : Stand dir key draft (.restrict :: Draft.openSteps dir key draft.pieces)
      (some ⟨id, 0⟩) (some (id, []))
  | writing (id : Nat) (done todo : List Bytes) (h : draft.pieces = done ++ todo) :
      Stand dir key draft (Draft.openSteps dir key todo) (some ⟨id, done.flatten.length⟩)
        (some (id, done.flatten))
  | synced (id : Nat) : Stand dir key draft [.rename (draftPath dir key) (path dir key)] none
      (some (id, Text.utf8 draft.value))
  | ended : Stand dir key draft [] none none

/-- Since a draft has been opened: the directories stand, and the place of the key has what it had,
or a whole value. -/
structure Drafting (dir key : String) (draft : ι → Draft) (start now made : Disk) (p : Place) :
    Prop where
  grown : Disk.Grown start made
  located : made.locate (draftPath dir key) = .ok p
  directories : made.SameDirectories now
  unlinked : now.Unlinked
  kept : ∀ q, made.locate (path dir key) = .ok q → now.content? q = start.content? q ∨
    ∃ i, now.content? q = some (Text.utf8 (draft i).value)

/-- All writers stand somewhere. In the place of the draft is the file of the writer who has opened
it last, if that one is not done, with what it has put there. -/
def Race.Stands (dir key : String) (draft : ι → Draft) (race : Race ι) (p : Place) : Prop :=
  ∀ i, ∃ put?, Stand dir key (draft i) (race.left i) (race.open? i) put? ∧
    (race.opener = some i → ∀ id content, put? = some (id, content) →
      race.disk.node? p = some (.file id) ∧ race.disk.content? p = some content)

/-- What is true of a race at all times. -/
inductive Race.Sound (dir key : String) (draft : ι → Draft) (start : Disk) (race : Race ι) : Prop
  | before (grown : Disk.Grown start race.disk)
      (stand : ∀ i, Stand dir key (draft i) (race.left i) (race.open? i) none)
  | since (made : Disk) (p : Place) (drafting : Drafting dir key draft start race.disk made p)
      (stands : race.Stands dir key draft p)

variable {dir key : String} {draft : ι → Draft} {start now now' made : Disk} {p : Place}

theorem Drafting.first (hs : start.Unlinked) (hg : Disk.Grown start now)
    (hl : now.locate (draftPath dir key) = .ok p) : Drafting dir key draft start now now p where
  grown := hg
  located := hl
  directories := .refl now
  unlinked := hs.grown hg
  kept q _ := Or.inl (congrArg _ (hg.file_eq q))

theorem Drafting.located_now (h : Drafting dir key draft start now made p) :
    now.locate (draftPath dir key) = .ok p := h.directories.locate h.located

/-- The directories need not be made again. -/
theorem Drafting.make (hk : isKey key = true) (h : Drafting dir key draft start now made p) :
    Disk.run (Disk.makeDirectories dir) now = (.ok (), now) :=
  Disk.makeDirectories_there (Disk.locate_base (draft_name hk) h.located_now)

/-- Whatever happens to the draft, or to the modes of files, is in the way of no value. -/
theorem Drafting.change (hk : isKey key = true) (h : Drafting dir key draft start now made p)
    (hd : now.SameDirectories now') (hu : now'.Unlinked)
    (hc : ∀ q, q ≠ p → now'.content? q = now.content? q) :
    Drafting dir key draft start now' made p where
  grown := h.grown
  located := h.located
  directories := h.directories.trans hd
  unlinked := hu
  kept q hq := by
    rw [hc q (Disk.locate_join_ne (place_entry hk) (draft_entry hk) (place_ne_draft key key) hq
      h.located)]
    exact h.kept q hq

theorem Drafting.drafted {id : Nat} {content : Bytes} (hk : isKey key = true)
    (h : Drafting dir key draft start now made p) (hd : Disk.Drafted p id content now now') :
    Drafting dir key draft start now' made p :=
  h.change hk hd.only.directories hd.unlinked fun q hq => congrArg _ (hd.only.file q hq)

/-- A draft that holds a whole value may get its place. -/
theorem Drafting.renamed {id : Nat} {who : ι} (hk : isKey key = true)
    (h : Drafting dir key draft start now made p) (hn : now.node? p = some (.file id))
    (hc : now.content? p = some (Text.utf8 (draft who).value))
    (hr : Disk.run (Disk.rename (draftPath dir key) (path dir key)) now = (.ok (), now')) :
    Drafting dir key draft start now' made p := by
  obtain ⟨_, q, _, _, hq, _⟩ := Disk.rename_ok_iff.mp hr
  have hpq : p ≠ q := Disk.locate_join_ne (draft_entry hk) (place_entry hk)
    (place_ne_draft key key).symm h.located_now hq
  obtain ⟨hu, hdirs, hfiles, hnode, _, _⟩ :=
    Disk.rename_only h.unlinked h.located_now hq hpq hn hr
  refine ⟨h.grown, h.located, h.directories.trans hdirs, hu, fun q' hq' => Or.inr ⟨who, ?_⟩⟩
  cases hq.symm.trans (h.directories.locate hq')
  rw [← hc, Disk.content?, Disk.content?, Disk.file?, Disk.file?, hnode, hn, hfiles]

namespace Race

variable [DecidableEq ι] {race : Race ι}

theorem play_cons {who : ι} {step : Step} {left : List Step}
    (h : race.left who = step :: left) : race.play who =
      match Disk.run (step.run (race.open? who)) race.disk with
      | (.ok open?, disk) =>
        { race.go who disk open? left with
          opener := if step.opens then some who else race.opener }
      | (.error _, disk) => race.go who disk none [] := by
  rw [play, h]

theorem play_idle {who : ι} (h : race.left who = []) (n : Nat) :
    (List.replicate n who).foldl play race = race := by
  induction n with
  | zero => rfl
  | succ n ih => rw [List.replicate_succ, List.foldl_cons, play, h, ih]

/-- A writer who has all turns does its steps up to the first that fails. -/
theorem play_alone {who : ι} {steps : List Step} (h : race.left who = steps) :
    ((List.replicate steps.length who).foldl play race).disk =
      (Disk.run (steps.foldlM (fun o step => step.run o) (race.open? who)) race.disk).2 := by
  induction steps generalizing race with
  | nil => rfl
  | cons step steps ih =>
    rw [List.length_cons, List.replicate_succ, List.foldl_cons, play_cons h, List.foldlM_cons,
      Disk.run_bind]
    rcases Disk.run (step.run (race.open? who)) race.disk with ⟨e | open', d⟩
    · have hdone : (race.go who d none []).left who = [] := by simp [Race.go]
      exact congrArg Race.disk (play_idle hdone steps.length)
    · dsimp only
      rw [ih (by simp [Race.go])]
      simp [Race.go]

/-- Alone, a writer of one piece leaves what the storage leaves when it writes the value. -/
theorem alone_writes (s : FileStorage) {key : String} (hk : isKey key = true) (value : String)
    (who : ι) : (s.write key value).2.disk =
      ((List.replicate (writeSteps s.dir key value).length who).foldl play
        (.begin s.dir key s.disk fun _ => .one value)).disk := by
  have hleft : (Race.begin s.dir key s.disk fun _ : ι => .one value).left who =
      writeSteps s.dir key value := Draft.one_steps s.dir key value
  refine Eq.trans ?_ (play_alone hleft).symm
  rw [write_eq_runSteps hk, runSteps, Disk.run_bind]
  simp only [begin]
  rcases Disk.run (List.foldlM _ _ _) s.disk with ⟨e | r, d⟩ <;> rfl

/-- A turn concerns the writer whose it is, and beside it the one who has opened the draft last. -/
theorem Stands.go {who : ι} {disk : Disk} {open? : Option Handle} {left : List Step}
    {opener : Option ι} {put? : Option (Nat × Bytes)} (h : race.Stands dir key draft p)
    (hwho : Stand dir key (draft who) left open? put?)
    (hput : opener = some who → ∀ id content, put? = some (id, content) →
      disk.node? p = some (.file id) ∧ disk.content? p = some content)
    (hothers : ∀ i, i ≠ who → opener = some i → race.opener = some i ∧
      disk.node? p = race.disk.node? p ∧ disk.content? p = race.disk.content? p) :
    Stands dir key draft { race.go who disk open? left with opener } p := by
  intro i
  by_cases hi : i = who
  · subst hi
    simp only [Race.go, ↓reduceIte]
    exact ⟨put?, hwho, hput⟩
  · obtain ⟨other?, hstand, hother⟩ := h i
    simp only [Race.go, if_neg hi]
    refine ⟨other?, hstand, fun ho id content hs => ?_⟩
    obtain ⟨hopener, hnode, hcontent⟩ := hothers i hi ho
    rw [hnode, hcontent]
    exact hother hopener id content hs

/-- Before a draft has been opened nobody has one open. -/
theorem Sound.play_before (hk : isKey key = true) (hs : start.Unlinked)
    (hg : Disk.Grown start race.disk)
    (hstand : ∀ i, Stand dir key (draft i) (race.left i) (race.open? i) none) (who : ι) :
    (race.play who).Sound dir key draft start := by
  have hgo : ∀ {disk : Disk} {open? : Option Handle} {left : List Step} {opener : Option ι},
      Disk.Grown start disk → Stand dir key (draft who) left open? none →
      Sound dir key draft start { race.go who disk open? left with opener } := by
    intro disk open? left opener hd hw
    refine .before hd fun i => ?_
    by_cases hi : i = who
    · subst hi
      simpa only [Race.go, ↓reduceIte] using hw
    · simpa only [Race.go, if_neg hi] using hstand i
  have hwho := hstand who
  generalize hl : race.left who = left, ho : race.open? who = open?, hn : none = put? at hwho
  cases hwho with
  | new =>
    have hmade := hg.trans (Disk.makeDirectories_grown dir race.disk)
    rw [play_cons hl, run_make_step, ho]
    rcases hr : Disk.run (Disk.makeDirectories dir) race.disk with ⟨e | r, d⟩
    · rw [hr] at hmade
      exact hgo hmade .ended
    · rw [hr] at hmade
      exact hgo hmade .made
  | made =>
    rw [play_cons hl, run_create_step]
    rcases hc : Disk.run (Disk.create (draftPath dir key) ownerOnly) race.disk with ⟨e | f, d⟩
    · rw [Disk.create_error hc]
      exact hgo hg .ended
    · obtain ⟨hu, _⟩ := draft_unslashed dir hk
      obtain ⟨id, offset⟩ := f
      obtain ⟨p, hp, rfl, hd⟩ := Disk.create_only (hs.grown hg) hu hc
      have hstands : race.Stands dir key draft p := fun i => ⟨none, hstand i, nofun⟩
      refine .since race.disk p ((Drafting.first hs hg hp).drafted hk hd)
        (hstands.go (.opened id) ?_ ?_)
      · rintro _ _ _ ⟨⟩
        exact ⟨hd.node, hd.content⟩
      · rintro i hi ⟨⟩
        exact absurd rfl hi
  | ended =>
    rw [play, hl]
    exact .before hg hstand
  | _ => cases hn

/-- Once a draft has been opened each writer finds the directories, and the draft as the one left it
who has opened it last. -/
theorem Sound.play_since (hk : isKey key = true)
    (hd : Drafting dir key draft start race.disk made p) (hs : race.Stands dir key draft p)
    (who : ι) (ho : (race.left who).head?.any Step.puts = true → race.opener = some who) :
    (race.play who).Sound dir key draft start := by
  -- Turns that change neither who has opened the draft nor what it holds.
  have hstay : ∀ {disk : Disk} {open? : Option Handle} {left : List Step}
      {put? : Option (Nat × Bytes)}, race.disk.SameDirectories disk → disk.Unlinked →
      disk.node? p = race.disk.node? p → (∀ q, disk.content? q = race.disk.content? q) →
      Stand dir key (draft who) left open? put? →
      (race.opener = some who → ∀ id content, put? = some (id, content) →
        race.disk.node? p = some (.file id) ∧ race.disk.content? p = some content) →
      Sound dir key draft start { race.go who disk open? left with opener := race.opener } := by
    intro disk open? left put? hsame hu hnode hcontent hstand hput
    refine .since made p (hd.change hk hsame hu fun q _ => hcontent q)
      (hs.go hstand ?_ fun i _ hi => ⟨hi, hnode, hcontent p⟩)
    rwa [hnode, hcontent p]
  have hidle : ∀ {open? : Option Handle} {left : List Step} {put? : Option (Nat × Bytes)},
      Stand dir key (draft who) left open? put? →
      (race.opener = some who → ∀ id content, put? = some (id, content) →
        race.disk.node? p = some (.file id) ∧ race.disk.content? p = some content) →
      Sound dir key draft start
        { race.go who race.disk open? left with opener := race.opener } := fun hstand hput =>
    hstay (.refl race.disk) hd.unlinked rfl (fun _ => rfl) hstand hput
  have hended : Sound dir key draft start (race.go who race.disk none []) :=
    hidle .ended fun _ => nofun
  obtain ⟨put?, hwho, hput⟩ := hs who
  generalize hl : race.left who = left, hf : race.open? who = open? at hwho ho
  cases hwho with
  | new =>
    rw [play_cons hl, run_make_step, hd.make hk, hf]
    exact hidle .made fun _ => nofun
  | made =>
    rw [play_cons hl, run_create_step]
    rcases hc : Disk.run (Disk.create (draftPath dir key) ownerOnly) race.disk with ⟨e | f, d⟩
    · rw [Disk.create_error hc]
      exact hended
    · obtain ⟨hu, _⟩ := draft_unslashed dir hk
      obtain ⟨id, offset⟩ := f
      obtain ⟨q, hq, rfl, hdrafted⟩ := Disk.create_only hd.unlinked hu hc
      cases hd.located_now.symm.trans hq
      refine .since made p (hd.drafted hk hdrafted) (hs.go (.opened id) ?_ ?_)
      · rintro _ _ _ ⟨⟩
        exact ⟨hdrafted.node, hdrafted.content⟩
      · rintro i hi ⟨⟩
        exact absurd rfl hi
  | opened id =>
    rw [play_cons hl, hf]
    exact hstay ((Disk.SameDirectories.refl race.disk).files _) (hd.unlinked.modify id _) rfl
      (Disk.content_mode race.disk id ownerOnly) (.writing id [] (draft who).pieces rfl) hput
  | writing id done todo h =>
    cases todo with
    | nil =>
      rw [List.append_nil] at h
      have hstand : Stand dir key (draft who) [.rename (draftPath dir key) (path dir key)] none
          (some (id, done.flatten)) := by
        rw [← h, (draft who).whole]
        exact .synced id
      rw [play_cons hl]
      exact hidle hstand hput
    | cons piece todo =>
      have hopener := ho rfl
      obtain ⟨hnode, hcontent⟩ := hput hopener id _ rfl
      have hwritten := (Disk.drafted_self hd.unlinked hnode hcontent).modify
        (c := (done ++ [piece]).flatten) (f := fun f => { f with
          content := Disk.overwrite f.content done.flatten.length piece }) fun mode => by
            rw [Disk.overwrite_end]
            simp
      have hlength : (done ++ [piece]).flatten.length = done.flatten.length + piece.length := by
        simp
      have hstand : Stand dir key (draft who) (Draft.openSteps dir key todo)
          (some ⟨id, done.flatten.length + piece.length⟩)
          (some (id, (done ++ [piece]).flatten)) := by
        rw [← hlength]
        exact .writing id (done ++ [piece]) todo (by simp [h])
      rw [play_cons hl, hf]
      refine .since made p (hd.drafted hk hwritten) (hs.go hstand ?_ fun i hi h => ?_)
      · rintro _ _ _ ⟨⟩
        exact ⟨hwritten.node, hwritten.content⟩
      · exact absurd (Option.some.inj (hopener.symm.trans h)) (Ne.symm hi)
  | synced id =>
    have hopener := ho rfl
    obtain ⟨hnode, hcontent⟩ := hput hopener id _ rfl
    rw [play_cons hl, run_rename_step]
    rcases hr : Disk.run (Disk.rename (draftPath dir key) (path dir key)) race.disk with ⟨e | r, d⟩
    · rw [Disk.rename_error hr]
      exact hended
    · refine .since made p (hd.renamed hk hnode hcontent hr)
        (hs.go .ended (fun _ => nofun) fun i hi h => ?_)
      exact absurd (Option.some.inj (hopener.symm.trans h)) (Ne.symm hi)
  | ended =>
    rw [play, hl]
    exact .since made p hd hs

omit [DecidableEq ι] in
theorem Sound.begin (dir key : String) (draft : ι → Draft) (start : Disk) :
    Sound dir key draft start (.begin dir key start draft) := .before (.refl start) fun _ => .new

theorem Sound.turns (hk : isKey key = true) (hs : start.Unlinked) (turns : List ι)
    (h : race.Sound dir key draft start) (ho : race.orderly turns = true) :
    (turns.foldl play race).Sound dir key draft start := by
  induction turns generalizing race with
  | nil => exact h
  | cons who turns ih =>
    rw [orderly, Bool.and_eq_true, Bool.or_eq_true, Bool.not_eq_true', beq_iff_eq] at ho
    obtain ⟨hwho, hrest⟩ := ho
    refine ih ?_ hrest
    cases h with
    | before hg hstand => exact .play_before hk hs hg hstand who
    | since made p hd hstands =>
      refine .play_since hk hd hstands who fun hputs => ?_
      rw [hputs] at hwho
      simpa using hwho

omit [DecidableEq ι] in
/-- At all times the place of the key has what was there before the race, or a whole value. -/
theorem Sound.kept (hk : isKey key = true) (hs : start.Unlinked)
    (h : race.Sound dir key draft start) : ∃ made, Disk.Grown start made ∧
      made.SameDirectories race.disk ∧ race.disk.Sound ∧
      race.disk.locate (path dir key) = made.locate (path dir key) ∧
      ∀ q, made.locate (path dir key) = .ok q →
        race.disk.content? q = start.content? q ∨
          ∃ i, race.disk.content? q = some (Text.utf8 (draft i).value) := by
  cases h with
  | before hg _ =>
    exact ⟨race.disk, hg, .refl race.disk, hg.sound hs.sound, rfl,
      fun q _ => Or.inl (congrArg _ (hg.file_eq q))⟩
  | since made p hd _ =>
    exact ⟨made, hd.grown, hd.directories, hd.unlinked.sound,
      hd.directories.locate_beside (draft_entry hk) (place_entry hk).isName hd.located, hd.kept⟩

end Race

/-- What is read depends on where the path leads to and what is there. -/
theorem read_ok_iff {dir key : String} {d : Disk} {found : Option String} (hk : isKey key = true)
    (hs : d.Sound) : read ⟨d, dir⟩ key = .ok found ↔
      (found = none ∧ (d.locate (path dir key) = .error .notFound ∨
        ∃ q, d.locate (path dir key) = .ok q ∧ d.node? q = none)) ∨
      ∃ q bytes text, d.locate (path dir key) = .ok q ∧ d.content? q = some bytes ∧
        Text.ofUtf8? bytes = some text ∧ found = some text := by
  simp only [read, hk, ↓reduceIte, Disk.readText_eq, Disk.find_eq]
  cases hl : d.locate (path dir key) with
  | error e => cases e <;> simp [eq_comm]
  | ok q =>
    cases hn : d.node? q with
    | none => simp [Disk.content?, Disk.file?, hn, eq_comm]
    | some n =>
      cases n with
      | directory => simp [Disk.content?, Disk.file?, hn]
      | file id =>
        have hid := hs.file hn
        have hf := List.getElem?_eq_getElem hid
        cases hu : Text.ofUtf8? d.files[id].content <;>
          simp [Disk.content?, Disk.file?, hn, hf, hu, eq_comm]

/-- What is read in a race is a whole value, or what was there before it. -/
theorem Race.Sound.read {race : Race ι} {found : Option String} (hk : isKey key = true)
    (hs : start.Unlinked) (h : race.Sound dir key draft start)
    (hr : FileStorage.read ⟨race.disk, dir⟩ key = .ok found) :
    (∃ i, found = some (draft i).value) ∨ FileStorage.read ⟨start, dir⟩ key = .ok found ∨
      FileStorage.read ⟨start, dir⟩ key = .ok none ∧ ∃ q f text,
        race.disk.locate (path dir key) = .ok q ∧ start.file? q = some f ∧
        Text.ofUtf8? f.content = some text ∧ found = some text := by
  obtain ⟨made, hg, hd, hsound, hl, hkept⟩ := h.kept hk hs
  -- What leads nowhere at first may do so later, and nothing else changes its place.
  have hplace : start.locate (path dir key) = .error .notFound ∨
      start.locate (path dir key) = made.locate (path dir key) := by
    by_cases hmiss : start.locate (path dir key) = .error .notFound
    · exact Or.inl hmiss
    · exact Or.inr (hg.locate_eq hmiss).symm
  have hmissed : start.locate (path dir key) = .error .notFound →
      FileStorage.read ⟨start, dir⟩ key = .ok none := fun hmiss =>
    (read_ok_iff hk hs.sound).mpr (Or.inl ⟨rfl, Or.inl hmiss⟩)
  rcases (read_ok_iff hk hsound).mp hr with ⟨rfl, hnone⟩ | ⟨q, bytes, text, hq, hc, hu, rfl⟩
  · right
    left
    rcases hplace with hmiss | hsame
    · exact hmissed hmiss
    · refine (read_ok_iff hk hs.sound).mpr (Or.inl ⟨rfl, ?_⟩)
      rw [hsame, ← hl]
      refine hnone.imp_right fun ⟨q, hq, hn⟩ => ⟨q, hq, ?_⟩
      have hcontent : race.disk.content? q = none := by
        simp [Disk.content?, Disk.file?, hn]
      have hbefore : start.content? q = none := by
        rcases hkept q (hl ▸ hq) with hc | ⟨i, hc⟩
        · rw [← hc, hcontent]
        · rw [hcontent] at hc
          cases hc
      rcases Disk.content_none hs.sound hbefore with hold | hold
      · exact hold
      · rw [(hd.node q).mpr (hg.directory q hold)] at hn
        cases hn
  · rcases hkept q (hl ▸ hq) with hold | ⟨i, hvalue⟩
    · right
      rw [hold] at hc
      rcases hplace with hmiss | hsame
      · obtain ⟨f, hf, rfl⟩ := Option.map_eq_some_iff.mp hc
        exact Or.inr ⟨hmissed hmiss, q, f, text, hq, hf, hu, rfl⟩
      · exact Or.inl ((read_ok_iff hk hs.sound).mpr
          (Or.inr ⟨q, bytes, text, hsame.trans (hl.symm.trans hq), hc, hu, rfl⟩))
    · left
      rw [hvalue] at hc
      cases hc
      rw [Text.ofUtf8_utf8] at hu
      exact ⟨i, congrArg some (Option.some.inj hu).symm⟩

/-- Writers of one key who take turns in any order are read as a whole, or what was there before is,
as long as nobody writes or renames a draft that somebody else has opened since. Where the path led
nowhere for want of a directory, what was there before is what lies in the place that it leads to
now. -/
theorem orderly_writers_are_whole [DecidableEq ι] {dir key : String} {start : Disk}
    (hk : isKey key = true) (hs : start.Unlinked) (draft : ι → Draft) (turns : List ι)
    (ho : (Race.begin dir key start draft).orderly turns = true) (found : Option String) :
    let now := (turns.foldl Race.play (.begin dir key start draft)).disk
    FileStorage.read ⟨now, dir⟩ key = .ok found →
      (∃ i, found = some (draft i).value) ∨ FileStorage.read ⟨start, dir⟩ key = .ok found ∨
        FileStorage.read ⟨start, dir⟩ key = .ok none ∧ ∃ q f text,
          now.locate (path dir key) = .ok q ∧ start.file? q = some f ∧
          Text.ofUtf8? f.content = some text ∧ found = some text := by
  intro now hr
  exact ((Race.Sound.begin dir key draft start).turns hk hs turns ho).read hk hs hr

/-- A writer who has put its value into the draft is outrun by another who opens it once more. -/
theorem second_opener_is_whole :
    let draft (i : Bool) : Draft := .one (if i then "bb" else "aaaa")
    let race := Race.begin "state" "k" (.empty ["home"]) draft
    let turns := [false, false, false, false, true, true, true, true, true, true]
    isKey "k" = true ∧ (Disk.empty ["home"]).Unlinked ∧ race.orderly turns = true ∧
      read ⟨(turns.foldl Race.play race).disk, "state"⟩ "k" = .ok (some "bb") ∧
      ∃ i, some "bb" = some (draft i).value := by
  intro draft race turns
  have hs := (Disk.empty_isTree ["home"]).toUnlinked
  have ho : race.orderly turns = true := by decide +kernel
  have hr : read ⟨(turns.foldl Race.play race).disk, "state"⟩ "k" = .ok (some "bb") := by
    decide +kernel
  refine ⟨rfl, hs, ho, hr, ?_⟩
  rcases orderly_writers_are_whole rfl hs draft turns ho _ hr with h | h | ⟨_, q, f, _, _, h, _⟩
  · exact h
  · have hnone : read ⟨.empty ["home"], "state"⟩ "k" = .ok none := by decide +kernel
    rw [hnone] at h
    cases h
  · obtain ⟨id, hn, _⟩ := Disk.file_node h
    exact absurd (hs.sound.file hn) (Nat.not_lt_zero id)

/-- A writer who has opened the draft goes on writing to it when it is in the place of the key,
where another has put it: what is read then nobody has written. -/
theorem late_writer_tears_value :
    let draft (i : Bool) : Draft := .one (if i then "bb" else "aaaa")
    let turns := [true, true, false, false, false, false, false, false, true, true]
    let now := (turns.foldl Race.play (.begin "state" "k" (.empty ["home"]) draft)).disk
    isKey "k" = true ∧ read ⟨.empty ["home"], "state"⟩ "k" = .ok none ∧
      read ⟨now, "state"⟩ "k" = .ok (some "bbaa") ∧ ∀ i, (draft i).value ≠ "bbaa" := by
  decide +kernel

end FileStorage
end SignedConsole
