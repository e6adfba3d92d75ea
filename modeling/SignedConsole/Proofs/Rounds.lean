import SignedConsole.Proofs.Commands
import SignedConsole.Proofs.TextPieces

namespace SignedConsole

variable {σ : Type}

/-- Lines have been taken in order since, and each of them is the answer to one prompt. -/
def Desk.ReadOn (d d' : Desk σ) : Prop :=
  ∃ lines told, d.typed = lines ++ d'.typed ∧ d'.events = d.events ++ told ∧
    told.filterMap Event.answer? = lines.map Text.trim

/-- What is done without a line taken or answered. -/
theorem Desk.ReadOn.of_eq {d d' : Desk σ} (ht : d'.typed = d.typed) (he : d'.events = d.events) :
    d.ReadOn d' := ⟨[], [], by rw [ht]; rfl, by rw [he, List.append_nil], rfl⟩

theorem Desk.ReadOn.trans {d d' d'' : Desk σ} (h : d.ReadOn d') (h' : d'.ReadOn d'') :
    d.ReadOn d'' := by
  obtain ⟨lines, told, ht, he, ha⟩ := h
  obtain ⟨later, laterTold, ht', he', ha'⟩ := h'
  refine ⟨lines ++ later, told ++ laterTold, ?_, ?_, ?_⟩
  · rw [ht, ht', List.append_assoc]
  · rw [he', he, List.append_assoc]
  · rw [List.filterMap_append, List.map_append, ha, ha']

theorem Desk.ReadOn.recorded (d : Desk σ) {events : List Event}
    (h : ∀ e ∈ events, e.answer? = none) :
    d.ReadOn { d with events := d.events ++ events } :=
  ⟨[], events, rfl, rfl, List.filterMap_eq_nil_iff.mpr h⟩

/-- The desk once a line has been read at a prompt. -/
def Desk.reading (d : Desk σ) (prompt : String) (hidden : Bool) (line : String)
    (rest : List String) : Desk σ :=
  { d with
    typed := rest
    events := d.events ++ [.asked prompt hidden (some (Text.trim line))] }

theorem Desk.ReadOn.reading {d : Desk σ} {line : String} {rest : List String}
    (h : d.typed = line :: rest) (prompt : String) (hidden : Bool) :
    d.ReadOn (d.reading prompt hidden line rest) :=
  ⟨[line], [.asked prompt hidden (some (Text.trim line))], h, rfl, rfl⟩

instance [Storage σ] : Enduring (@Desk.ReadOn σ) where
  refl _ := .of_eq rfl rfl
  trans := .trans
  recorded d _ h := .recorded d h
  read _ prompt hidden _ _ h := .reading h prompt hidden
  called _ _ := .of_eq rfl rfl
  probed _ := .of_eq rfl rfl
  sought _ _ := .of_eq rfl rfl
  saved _ _ _ _ := .of_eq rfl rfl
  forgotten _ := .of_eq rfl rfl

/-- A line at the prompt, with the desk before it, the desk that its command starts from and the one
that the command leaves. -/
structure Round (σ : Type) where
  before : Desk σ
  line : String
  heard : Desk σ
  after : Desk σ

namespace Round
variable [Host σ]

def command (r : Round σ) : Command := .ofLine (Text.trim r.line)

/-- What a round is: its line is the next one, read at the prompt for the user of the moment, and its
command is run. -/
structure Runs (r : Round σ) (next : Next) : Prop where
  typed : r.before.typed = r.line :: r.heard.typed
  heard : r.heard =
    r.before.reading (promptFor r.before.vault.session) false r.line r.heard.typed
  ran : r.heard.perform (Console.execute r.command) = (next, r.after)

variable {r : Round σ} {next : Next}

theorem Runs.endures {R : Desk σ → Desk σ → Prop} [Enduring R] (h : r.Runs next) :
    R r.before r.heard ∧ R r.heard r.after := by
  have hread := Lasting.read (R := R) r.before (promptFor r.before.vault.session) false r.line
    r.heard.typed h.typed
  have hlast := (Console.execute_endures (R := R) r.command).step r.heard
  rw [h.ran] at hlast
  refine ⟨?_, hlast⟩
  rw [h.heard]
  exact hread

/-- The lines of a round are its own and the answers that its command took. -/
theorem Runs.accounts (h : r.Runs next) : ∃ answers told,
    r.before.typed = r.line :: answers ++ r.after.typed ∧
    r.after.events = r.before.events ++
      .asked (r.before.vault.session.userId.getD "guest" ++ "@console:~$") false
        (some (Text.trim r.line)) :: told ∧
    told.filterMap Event.answer? = answers.map Text.trim := by
  obtain ⟨answers, told, ht, he, ha⟩ := (h.endures (R := Desk.ReadOn)).2
  refine ⟨answers, told, ?_, ?_, ha⟩
  · rw [h.typed, ht]
    rfl
  · rw [he, h.heard, Desk.reading, List.append_assoc]
    rfl

end Round

/-- The rounds of a run from its first prompt on. -/
inductive Course [Host σ] : Desk σ → List (Round σ) → Desk σ → Prop where
  /-- There is no line any more. -/
  | closed {d : Desk σ} (h : d.typed = []) : Course d [] { d with
      events := d.events ++ [.asked (promptFor d.vault.session) false none] }
  | left {r : Round σ} (h : r.Runs .leave) : Course r.before [r] r.after
  | on {r : Round σ} {rounds : List (Round σ)} {last : Desk σ} (h : r.Runs .goOn)
      (later : Course r.after rounds last) : Course r.before (r :: rounds) last

section
variable [Host σ]

/-- The loop goes round by round, and the lines are enough for it to come to its end. -/
theorem Course.of_loop {lines : Nat} {d : Desk σ} (h : d.typed.length < lines) :
    ∃ rounds, Course d rounds (d.perform (Console.loop lines)).2 := by
  induction lines generalizing d with
  | zero => cases h
  | succ lines ih =>
    simp only [Console.loop, Desk.perform_bind]
    have hd : (d.perform Console.session).2 = d := rfl
    have hs : (d.perform Console.session).1 = d.vault.session := rfl
    rw [hd, hs, Console.perform_readLine]
    cases ht : d.typed with
    | nil =>
      have hclosed := Course.closed ht
      rw [ht] at hclosed
      exact ⟨[], hclosed⟩
    | cons line rest =>
      let heard := d.reading (promptFor d.vault.session) false line rest
      have hheard : ({ d with typed := rest, events := d.events ++
        [.asked (promptFor d.vault.session) false (some (Text.trim line))] } : Desk σ) = heard := rfl
      simp only [Console.dispatch, hheard, Desk.perform_bind]
      have hlater := (Console.execute_typedOn (.ofLine (Text.trim line))).step heard
      have hlen : rest.length < lines := by
        rw [ht, List.length_cons] at h
        omega
      have hle := Nat.lt_of_le_of_lt hlater.length_le hlen
      cases hran : heard.perform (Console.execute (.ofLine (Text.trim line))) with
      | mk next after =>
        let r : Round σ := ⟨d, line, heard, after⟩
        have hr : r.Runs next := ⟨ht, rfl, hran⟩
        rw [hran] at hle
        cases next with
        | leave => exact ⟨[r], .left hr⟩
        | goOn =>
          obtain ⟨rounds, hrounds⟩ := ih hle
          exact ⟨r :: rounds, .on hr hrounds⟩

/-- The desk once the console has greeted. -/
def Desk.greeted (d : Desk σ) (restored : Bool) : Desk σ :=
  { d with events := d.events ++
      (Console.greeting restored d.vault.session.user).map Event.printed }

/-- A run is a greeting and a course of rounds. -/
theorem Course.of_run (d : Desk σ) (restored : Bool) :
    ∃ rounds, Course (d.greeted restored) rounds (d.perform (Console.run restored)).2 :=
  Course.of_loop (Nat.lt_succ_self _)

/-- Whether the first word of a line is one to leave with. -/
def Leaves (line : String) : Prop :=
  ∃ word args, Text.words line = word :: args ∧
    (Text.lower word = "exit" ∨ Text.lower word = "quit")

theorem Command.ofWords_leave (words : List String) : ofWords words = .leave ↔
    ∃ word args, words = word :: args ∧ (Text.lower word = "exit" ∨ Text.lower word = "quit") := by
  cases words with
  | nil => simp [ofWords]
  | cons first args =>
    simp only [ofWords, List.cons.injEq]
    constructor
    · intro h
      refine ⟨first, args, ⟨rfl, rfl⟩, ?_⟩
      split at h <;> simp_all
    · rintro ⟨_, _, ⟨rfl, rfl⟩, hword | hword⟩ <;> simp only [hword]

omit [Host σ] in
theorem Round.command_leave (r : Round σ) : r.command = .leave ↔ Leaves r.line := by
  rw [command, Command.ofLine, Text.words_trim]
  exact Command.ofWords_leave _

/-- Only the command to leave ends a run, whatever the others come to. -/
theorem Console.execute_next (c : Command) (d : Desk σ) :
    (d.perform (execute c)).1 = .leave ↔ c = .leave := by
  cases c with
  | leave => exact ⟨fun _ => rfl, fun _ => rfl⟩
  | _ =>
    refine ⟨fun h => ?_, nofun⟩
    cases h

theorem Console.execute_leave (d : Desk σ) : d.perform (execute .leave) = (.leave, d) := rfl

theorem Round.Runs.leaves {r : Round σ} {next : Next} (h : r.Runs next) :
    next = .leave ↔ Leaves r.line := by
  rw [← r.command_leave, ← Console.execute_next r.command r.heard, h.ran]

theorem Round.Runs.left_at_once {r : Round σ} (h : r.Runs .leave) : r.after = r.heard := by
  have hran := h.ran
  rw [r.command_leave.mpr (h.leaves.mp rfl), Console.execute_leave] at hran
  exact (congrArg Prod.snd hran).symm

namespace Course
variable {d last : Desk σ} {rounds : List (Round σ)}

/-- What endures holds from the start of a course on. -/
theorem endures {R : Desk σ → Desk σ → Prop} [Enduring R] (h : Course d rounds last) :
    R d last ∧ ∀ r ∈ rounds, R d r.before := by
  induction h with
  | closed _ =>
    exact ⟨Lasting.recorded _ _ fun _ he => (List.mem_singleton.mp he) ▸ rfl, List.forall_mem_nil _⟩
  | left h =>
    refine ⟨Lasting.trans h.endures.1 h.endures.2, fun r hr => ?_⟩
    rw [List.mem_singleton.mp hr]
    exact Lasting.refl _
  | on h _ ih =>
    have hafter := Lasting.trans h.endures.1 (h.endures (R := R)).2
    refine ⟨Lasting.trans hafter ih.1, fun r hr => ?_⟩
    rcases List.mem_cons.mp hr with rfl | hr
    · exact Lasting.refl _
    · exact Lasting.trans hafter (ih.2 r hr)

theorem runs (h : Course d rounds last) {r : Round σ} (hr : r ∈ rounds) :
    ∃ next, r.Runs next := by
  induction h with
  | closed _ => cases hr
  | left h =>
    obtain rfl := List.mem_singleton.mp hr
    exact ⟨.leave, h⟩
  | on h _ ih =>
    rcases List.mem_cons.mp hr with rfl | hr
    · exact ⟨.goOn, h⟩
    · exact ih hr

/-- The last round is the first whose line says to leave, or there is none and no line is left. -/
theorem ends (h : Course d rounds last) :
    (∃ earlier r, rounds = earlier ++ [r] ∧ (∀ q ∈ earlier, ¬ Leaves q.line) ∧ Leaves r.line ∧
      r.before.typed = r.line :: last.typed) ∨
    ((∀ q ∈ rounds, ¬ Leaves q.line) ∧ last.typed = [] ∧ ∃ told,
      last.events = told ++ [.asked (promptFor last.vault.session) false none]) := by
  induction h with
  | closed h => exact Or.inr ⟨List.forall_mem_nil _, h, _, rfl⟩
  | left h =>
    have ht := h.typed
    rw [← h.left_at_once] at ht
    exact Or.inl ⟨[], _, rfl, List.forall_mem_nil _, h.leaves.mp rfl, ht⟩
  | @on r rounds last h _ ih =>
    have hstays : ¬ Leaves r.line := by
      intro hl
      cases h.leaves.mpr hl
    rcases ih with ⟨earlier, q, rfl, hearlier, hq, ht⟩ | ⟨hall, hends⟩
    · refine Or.inl ⟨r :: earlier, q, rfl, ?_, hq, ht⟩
      intro p hp
      rcases List.mem_cons.mp hp with rfl | hp
      · exact hstays
      · exact hearlier p hp
    · refine Or.inr ⟨?_, hends⟩
      intro p hp
      rcases List.mem_cons.mp hp with rfl | hp
      · exact hstays
      · exact hall p hp

end Course

/-- A run comes to its end whatever is typed, kept and answered to it. The lines are read in order,
each of them once: at a prompt that shows the user of the moment, or for the command of the round.
It ends with the first line that says to leave, or when no line is left. -/
theorem Console.run_accounts_for_lines (d : Desk σ) (restored : Bool) :
    ∃ rounds last, d.perform (run restored) = ((), last) ∧
      Course (d.greeted restored) rounds last ∧ d.ReadOn last ∧
      (∀ r ∈ rounds, ∃ answers told,
        r.before.typed = r.line :: answers ++ r.after.typed ∧
        r.after.events = r.before.events ++
          .asked (r.before.vault.session.userId.getD "guest" ++ "@console:~$") false
            (some (Text.trim r.line)) :: told ∧
        told.filterMap Event.answer? = answers.map Text.trim) ∧
      ((∃ earlier r, rounds = earlier ++ [r] ∧ (∀ q ∈ earlier, ¬ Leaves q.line) ∧ Leaves r.line ∧
          r.before.typed = r.line :: last.typed) ∨
        ((∀ q ∈ rounds, ¬ Leaves q.line) ∧ last.typed = [] ∧ ∃ told,
          last.events = told ++ [.asked (promptFor last.vault.session) false none])) := by
  obtain ⟨rounds, hcourse⟩ := Course.of_run d restored
  refine ⟨rounds, _, rfl, hcourse, ?_, ?_, hcourse.ends⟩
  · refine Desk.ReadOn.trans (.recorded d ?_) hcourse.endures.1
    intro e he
    obtain ⟨_, _, rfl⟩ := List.mem_map.mp he
    rfl
  · intro r hr
    obtain ⟨next, h⟩ := hcourse.runs hr
    exact h.accounts

end
end SignedConsole
