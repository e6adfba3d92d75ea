import SignedConsole.Proofs.Deeds
import SignedConsole.Proofs.SecretOwners

namespace SignedConsole

/-- Storage that others use as well, and that may refuse. -/
abbrev Shared (σ : Type) := Beside (Refusing σ)

/-- Processes over one storage, and what they have done. -/
structure System (ι σ : Type) where
  storage : σ
  process : ι → Process (Shared σ)
  deeds : List (ι × Deed)

/-- A turn: whose it is, whether the storage refuses to serve it, and the disk and the clock that it
finds. -/
structure Turn (ι : Type) where
  who : ι
  refuses : Bool
  disk : Disk
  now : Clock

namespace System

variable [Storage σ]

/-- The desk at which a turn begins. -/
def desk (sys : System ι σ) (turn : Turn ι) : Desk (Shared σ) :=
  let d := (sys.process turn.who).desk
  let storage := ⟨⟨sys.storage, turn.refuses, turn.refuses, turn.refuses⟩, turn.disk⟩
  { d with vault := { d.vault with storage }, now := turn.now }

/-- The process whose turn it is takes a step. -/
def play [DecidableEq ι] (sys : System ι σ) (turn : Turn ι) : System ι σ :=
  let (p, deeds) := Process.step ⟨(sys.process turn.who).point, sys.desk turn⟩
  { storage := p.desk.vault.storage.storage.inner
    process := fun i => if i = turn.who then p else sys.process i
    deeds := sys.deeds ++ deeds.map (Prod.mk turn.who) }

variable [Cell σ]

/-- Nothing is stored, nothing has been done, and no process has started. -/
structure Fresh (sys : System ι σ) : Prop where
  stored : Cell.content sys.storage = none
  deeds : sys.deeds = []
  point : ∀ i, (sys.process i).point = .start
  session : ∀ i, (sys.process i).desk.vault.session = .anonymous

/-- Every secret is credited, whether it is stored or a process holds it. -/
structure Sound (sys : System ι σ) : Prop where
  stored : StoredCredited sys.deeds (Cell.content sys.storage)
  session : ∀ i, (sys.process i).desk.vault.session.Credited sys.deeds
  point : ∀ i, (sys.process i).point.Credited i sys.deeds

variable {sys : System ι σ}

theorem Fresh.sound (h : sys.Fresh) : sys.Sound := by
  refine ⟨?_, fun i => ?_, fun i => ?_⟩
  · rw [h.stored]
    rintro scheme r secret ⟨⟩
  · rw [h.session i]
    rintro secret ⟨⟩
  · rw [h.point i]
    trivial

variable [DecidableEq ι]

theorem Sound.play (h : sys.Sound) (turn : Turn ι) : (sys.play turn).Sound := by
  have hturn : Process.Sound turn.who sys.deeds ⟨(sys.process turn.who).point, sys.desk turn⟩ :=
    ⟨trivial, h.session turn.who, h.point turn.who, h.stored⟩
  have hstep := hturn.step
  refine ⟨hstep.stored, fun i => ?_, fun i => ?_⟩
  · by_cases hi : i = turn.who
    · simp only [System.play, if_pos hi]
      exact hstep.session
    · simp only [System.play, if_neg hi]
      exact (h.session i).more _
  · by_cases hi : i = turn.who
    · subst hi
      simp only [System.play, ↓reduceIte]
      exact hstep.point
    · simp only [System.play, if_neg hi]
      exact (h.point i).more _

theorem Sound.turns (h : sys.Sound) (turns : List (Turn ι)) :
    (turns.foldl System.play sys).Sound := by
  induction turns generalizing sys with
  | nil => exact h
  | cons turn turns ih => exact ih (h.play turn)

omit [Cell σ] in
/-- What has been done has happened in one of the turns. -/
theorem turns_happened (sys : System ι σ) (turns : List (Turn ι)) {i : ι} {deed : Deed}
    (hm : (i, deed) ∈ (turns.foldl play sys).deeds) : (i, deed) ∈ sys.deeds ∨
      ∃ earlier turn later, turns = earlier ++ turn :: later ∧ turn.who = i ∧
        deed.Happened ((earlier.foldl play sys).desk turn) := by
  induction turns generalizing sys with
  | nil => exact Or.inl hm
  | cons turn turns ih =>
    rcases ih (sys.play turn) hm with hm | ⟨earlier, later, rest, rfl, hwho, hd⟩
    · rcases List.mem_append.mp hm with hm | hm
      · exact Or.inl hm
      · obtain ⟨_, hd, ⟨⟩⟩ := List.mem_map.mp hm
        exact Or.inr ⟨[], turn, turns, rfl, rfl,
          Point.step_happened (sys.process turn.who).point (sys.desk turn) _ hd⟩
    · exact Or.inr ⟨turn :: earlier, later, rest, rfl, hwho, hd⟩

/-- However processes over one storage take turns, and whatever the storage refuses them, a secret
that a session or the storage holds was issued to the user that it stands with, or was entered after
a login of that user had been granted. -/
theorem secrets_stay_with_users (h : sys.Fresh) (turns : List (Turn ι)) :
    let after := turns.foldl play sys
    (∀ i, (after.process i).desk.vault.session.Credited after.deeds) ∧
      StoredCredited after.deeds (Cell.content after.storage) ∧
      ∀ i deed, (i, deed) ∈ after.deeds →
        ∃ earlier turn later, turns = earlier ++ turn :: later ∧ turn.who = i ∧
          deed.Happened ((earlier.foldl play sys).desk turn) := by
  intro after
  have hsound : after.Sound := h.sound.turns turns
  refine ⟨hsound.session, hsound.stored, fun i deed hm => ?_⟩
  rcases sys.turns_happened turns hm with hm | hd
  · rw [h.deeds] at hm
    cases hm
  · exact hd

/-- While Alice registers, Bob logs in; her secret is stored when his is looked for, so he is asked
for his. -/
theorem bob_enters_his_secret :
    let desk (typed : List String) (answers : List Answer) : Desk (Shared Memory) :=
      ⟨.of "http://api.test" .hmac .failOpen,
        .closed ⟨⟨.empty, false, false, false⟩, .empty []⟩ .hmac, ⟨true, answers, .hangUp, []⟩, 0,
        typed, []⟩
    let alice := desk ["register", "alice@example.com", "123456", "pw"]
      [.reply 200 (Text.utf8 "\x7b\x7d"), .reply 200 (Text.utf8
        "\x7b\"user_id\":\"alice\",\"token\":\"jwt\",\"secret_key\":\"sk_alice\"\x7d")]
    let bob := desk ["login", "bob@example.com", "pw", "sk_bob"]
      [.reply 200 (Text.utf8 "\x7b\"user_id\":\"bob\",\"token\":\"jwt\"\x7d")]
    let sys : System Bool Memory := ⟨.empty, fun i => ⟨.start, if i then bob else alice⟩, []⟩
    let turns := [true, true, false, false, false, true, true, true].map fun who =>
      (⟨who, false, .empty [], 1⟩ : Turn Bool)
    let after := turns.foldl play sys
    sys.Fresh ∧ (after.process false).desk.vault.session.secret = some ⟨"sk_alice"⟩ ∧
      Credited after.deeds "alice" ⟨"sk_alice"⟩ ∧
      (after.process true).desk.vault.session.secret = some ⟨"sk_bob"⟩ ∧
      Credited after.deeds "bob" ⟨"sk_bob"⟩ := by
  intro desk alice bob sys turns after
  have hfresh : sys.Fresh := ⟨rfl, rfl, fun _ => rfl, fun i => by cases i <;> rfl⟩
  have hsessions : ∀ sys', turns.foldl play sys = sys' →
      ∀ i, (sys'.process i).desk.vault.session.Credited sys'.deeds := by
    rintro _ rfl
    exact (secrets_stay_with_users hfresh turns).1
  have husers : ((after.process false).desk.vault.session.userId.getD "" = "alice" ∧
        (after.process false).desk.vault.session.secret.map Secret.text = some "sk_alice") ∧
      (after.process true).desk.vault.session.userId.getD "" = "bob" ∧
        (after.process true).desk.vault.session.secret.map Secret.text = some "sk_bob" := by
    decide +kernel
  replace hsessions := hsessions after rfl
  clear_value after
  obtain ⟨⟨halice, hs⟩, hbob, ht⟩ := husers
  obtain ⟨⟨_⟩, hs, rfl⟩ := Option.map_eq_some_iff.mp hs
  obtain ⟨⟨_⟩, ht, rfl⟩ := Option.map_eq_some_iff.mp ht
  exact ⟨hfresh, hs, halice ▸ hsessions false _ hs (by decide), ht,
    hbob ▸ hsessions true _ ht (by decide)⟩

end System

variable [Host σ] [Keeper σ] {ι : Type} {i : ι} {deeds : List (ι × Deed)}

/-- A process that goes on alone keeps all secrets with their users, and what it has done has
happened on its way. -/
theorem Process.Sound.reaches {p q : Process σ} (hr : Reaches p q) (h : Sound i deeds p) :
    ∃ done : List Deed, Sound i (deeds ++ done.map (Prod.mk i)) q ∧
      ∀ deed ∈ done, ∃ r, Reaches p r ∧ deed.Happened r.desk := by
  induction hr generalizing deeds with
  | refl p => exact ⟨[], by rwa [List.map_nil, List.append_nil], List.forall_mem_nil _⟩
  | @step p q _ ih =>
    obtain ⟨done, hsound, hdone⟩ := ih h.step
    refine ⟨p.step.2 ++ done, ?_, fun deed hm => ?_⟩
    · rwa [List.map_append, ← List.append_assoc]
    · rcases List.mem_append.mp hm with hm | hm
      · exact ⟨p, .refl p, Point.step_happened p.point p.desk deed hm⟩
      · obtain ⟨r, hreach, hd⟩ := hdone deed hm
        exact ⟨r, .step hreach, hd⟩

/-- A console that is alone with its storage keeps all secrets with their users, from the loading of
the session to the end of its run. -/
theorem Console.run_keeps_owners (d : Desk σ) (hs : Keeper.Sound d.vault.storage)
    (hsession : d.vault.session.Credited deeds)
    (hstored : StoredCredited deeds (Keeper.content d.vault.storage)) (i : ι) :
    let last := (({ d with vault := d.vault.load.2 } : Desk σ).perform (run d.vault.load.1)).2
    ∃ done : List Deed,
      last.vault.session.Credited (deeds ++ done.map (Prod.mk i)) ∧
      Keeper.Sound last.vault.storage ∧
      StoredCredited (deeds ++ done.map (Prod.mk i)) (Keeper.content last.vault.storage) ∧
      ∀ deed ∈ done, ∃ p, Process.Reaches ⟨.start, d⟩ p ∧ deed.Happened p.desk := by
  intro last
  have hstart : Process.Sound i deeds ⟨.start, d⟩ := ⟨hs, hsession, trivial, hstored⟩
  obtain ⟨done, hsound, hdone⟩ := hstart.reaches (Process.alone_runs_console d)
  exact ⟨done, hsound.session, hsound.storage, hsound.stored, hdone⟩

end SignedConsole
