import SignedConsole.Proofs.Commands

namespace SignedConsole

/-- Where a process stands between two steps. -/
inductive Point where
  | start
  | prompt
  /-- A login has been granted, and its secret is to be looked for. -/
  | search (r : Grant)
  /-- No secret is kept for a granted login. -/
  | entry (r : Grant)
  /-- New credentials are to be kept, and the lines told then. -/
  | keep (userId token : String) (secret : Secret) (lines : List Line)
  | forget
  | stopped

/-- What can make a secret a user's. -/
inductive Deed where
  /-- The platform answered a registration. -/
  | registered (r : Registration)
  /-- The platform granted a login. -/
  | granted (r : Grant)
  /-- It was entered for a login that had been granted. -/
  | entered (r : Grant) (secret : Secret)

namespace Point

/-- Goes on with what an attempt gives, or tells why it failed. -/
def orTell (task : String) (act : Attempt σ α) (next : α → Point × List Deed) :
    Console σ (Point × List Deed) := do
  match ← (Attempt.during task act).run with
  | .ok a => return next a
  | .error f =>
    Console.tell [.error f.message]
    return (.prompt, [])

def ofNext : Next → Point
  | .goOn => .prompt
  | .leave => .stopped

variable [Host σ]

/-- Runs a command up to the call of the storage that it comes to, if it comes to one. -/
def ofCommand : Command → Console σ (Point × List Deed)
  | .register => orTell "Registration failed" Account.requestRegistration fun r =>
    (.keep r.userId r.token ⟨r.secretKey⟩ (Account.registrationLines r), [.registered r])
  | .login => orTell "Login failed" Account.requestGrant fun r => (.search r, [.granted r])
  | .logout => return (.forget, [])
  | c => do return (ofNext (← Console.execute c), [])

def step : Point → Console σ (Point × List Deed)
  | .start => do
    let restored ← Console.changeVault Vault.load
    Console.tell (Console.greeting restored (← Console.session).user)
    return (.prompt, [])
  | .prompt => do
    match ← Console.readLine (promptFor (← Console.session)) false with
    | none => return (.stopped, [])
    | some line => ofCommand (.ofLine line)
  | .search r => do
    match ← Account.seekSecret r.userId with
    | some secret => return (.keep r.userId r.token secret (Account.loginLines r), [])
    | none => return (.entry r, [])
  | .entry r => orTell "Login failed" Account.askSecret fun secret =>
    (.keep r.userId r.token secret (Account.loginLines r), [.entered r secret])
  | .keep userId token secret lines => do
    Console.changeVault fun v => ((), v.save userId token secret)
    Console.tell lines
    return (.prompt, [])
  | .forget => do
    Account.logout
    return (.prompt, [])
  | .stopped => return (.stopped, [])

end Point

structure Process (σ : Type) where
  point : Point
  desk : Desk σ

namespace Process

variable [Host σ]

/-- One step, and the deeds that it brings. -/
def step (p : Process σ) : Process σ × List Deed :=
  let ((point, deeds), desk) := p.desk.perform p.point.step
  (⟨point, desk⟩, deeds)

def advance (p : Process σ) : Process σ := p.step.1

/-- One process comes to be another while no one else takes a turn. -/
inductive Reaches : Process σ → Process σ → Prop where
  | refl (p : Process σ) : Reaches p p
  | step {p q : Process σ} (h : Reaches p.advance q) : Reaches p q

theorem Reaches.trans {p q r : Process σ} (h : Reaches p q) (h' : Reaches q r) : Reaches p r := by
  induction h with
  | refl => exact h'
  | step _ ih => exact .step (ih h')

end Process

section
variable {d : Desk σ}

theorem Attempt.perform_bind (d : Desk σ) (act : Attempt σ α) (next : α → Attempt σ β) :
    d.perform (act >>= next).run = match d.perform act.run with
      | (.ok a, d') => d'.perform (next a).run
      | (.error f, d') => (.error f, d') := by
  rw [ExceptT.run_bind, Desk.perform_bind]
  rcases d.perform act.run with ⟨f | a, d'⟩ <;> rfl

theorem Attempt.surely_run (d : Desk σ) (act : Console σ α) :
    d.perform (surely act).run = (.ok (d.perform act).1, (d.perform act).2) := rfl

theorem Console.perform_attempt (d : Desk σ) (task : String) (act : Attempt σ Unit) :
    d.perform (attempt task act) = match d.perform act.run with
      | (.ok (), d') => ((), d')
      | (.error f, d') => d'.perform (tell [.error (Failure.during task f).message]) := by
  rw [attempt, Attempt.during_run, Desk.perform_bind, Desk.perform_bind]
  rcases d.perform act.run with ⟨f | a, d'⟩ <;> rfl

theorem Point.perform_orTell (d : Desk σ) (task : String) (act : Attempt σ α)
    (next : α → Point × List Deed) :
    d.perform (orTell task act next) = match d.perform act.run with
      | (.ok a, d') => (next a, d')
      | (.error f, d') =>
        ((.prompt, []),
          (d'.perform (Console.tell [.error (Failure.during task f).message])).2) := by
  rw [orTell, Attempt.during_run, Desk.perform_bind, Desk.perform_bind]
  rcases d.perform act.run with ⟨f | a, d'⟩ <;> rfl

theorem Point.orTell_result (d : Desk σ) (task : String) (act : Attempt σ α)
    (next : α → Point × List Deed) : (d.perform (orTell task act next)).1 = (.prompt, []) ∨
      ∃ a d', d.perform act.run = (.ok a, d') ∧
        (d.perform (orTell task act next)).1 = next a := by
  rw [perform_orTell]
  rcases d.perform act.run with ⟨f | a, d'⟩
  · exact Or.inl rfl
  · exact Or.inr ⟨a, d', rfl, rfl⟩

theorem Point.register_result [Host σ] (d : Desk σ) :
    (d.perform (ofCommand .register)).1 = (.prompt, []) ∨
      ∃ r d', d.perform Account.requestRegistration.run = (.ok r, d') ∧
        (d.perform (ofCommand .register)).1 =
          (.keep r.userId r.token ⟨r.secretKey⟩ (Account.registrationLines r), [.registered r]) :=
  orTell_result d _ _ _

theorem Point.login_result [Host σ] (d : Desk σ) :
    (d.perform (ofCommand .login)).1 = (.prompt, []) ∨
      ∃ r d', d.perform Account.requestGrant.run = (.ok r, d') ∧
        (d.perform (ofCommand .login)).1 = (.search r, [.granted r]) :=
  orTell_result d _ _ _

theorem Point.entry_result [Host σ] (d : Desk σ) (r : Grant) :
    (d.perform (step (.entry r))).1 = (.prompt, []) ∨
      ∃ secret d', d.perform Account.askSecret.run = (.ok secret, d') ∧
        (d.perform (step (.entry r))).1 =
          (.keep r.userId r.token secret (Account.loginLines r), [.entered r secret]) :=
  orTell_result d _ _ _

theorem Point.search_deeds [Host σ] (d : Desk σ) (r : Grant) :
    (d.perform (step (.search r))).1.2 = [] := by
  rw [step, Desk.perform_bind]
  cases (d.perform (Account.seekSecret r.userId)).1 <;> rfl

/-- A command that does not reach the vault is run as a whole. -/
theorem Point.ofCommand_eq [Host σ] {c : Command} (h : c.reachesVault = false) :
    ofCommand (σ := σ) c = do return (ofNext (← Console.execute c), []) := by
  cases c <;> first | rfl | cases h

section
variable {R : Desk σ → Desk σ → Prop} [Lasting R]

open Console (Keeps)

theorem Point.orTell_keeps (task : String) {act : Attempt σ α} (next : α → Point × List Deed)
    (h : act.Keeps R) : Keeps R (orTell task act next) := by
  refine .bind (h.during task) fun r => ?_
  cases r with
  | ok a => exact .pure _
  | error f => exact .bind (.tell _) fun _ => .pure _

/-- Whatever lasts without the vault lasts until a command comes to the storage. -/
theorem Point.ofCommand_keeps [Host σ] (c : Command) : Keeps R (ofCommand (σ := σ) c) := by
  cases hc : c.reachesVault with
  | true =>
    cases c with
    | register => exact orTell_keeps _ _ Account.requestRegistration_keeps
    | login => exact orTell_keeps _ _ Account.requestGrant_keeps
    | logout => exact .pure _
    | _ => cases hc
  | false =>
    rw [ofCommand_eq hc]
    exact .bind (Console.execute_keeps hc) fun _ => .pure _

theorem Point.prompt_keeps [Host σ] : Keeps R (step (σ := σ) .prompt) := by
  refine .bind .session fun s => .bind (.readLine _ _) fun answer => ?_
  cases answer with
  | none => exact .pure _
  | some line => exact ofCommand_keeps _

theorem Point.entry_keeps [Host σ] (r : Grant) : Keeps R (step (σ := σ) (.entry r)) :=
  orTell_keeps _ _ Account.askSecret_keeps

end

theorem Point.ofCommand_started [Host σ] (c : Command) (d : Desk σ) :
    (d.perform (ofCommand c)).1.1 ≠ .start := by
  cases hc : c.reachesVault with
  | true =>
    cases c with
    | register =>
      rcases register_result d with h | ⟨r, _, _, h⟩ <;>
      · rw [h]
        nofun
    | login =>
      rcases login_result d with h | ⟨r, _, _, h⟩ <;>
      · rw [h]
        nofun
    | logout => nofun
    | _ => cases hc
  | false =>
    rw [ofCommand_eq hc, Desk.perform_bind]
    cases (d.perform (Console.execute c)).1 <;> nofun

/-- A line that is read at the prompt is run as a command. -/
theorem Point.prompt_line [Host σ] {d : Desk σ} {line : String} {rest : List String}
    (h : d.typed = line :: rest) : d.perform (step .prompt) = ({ d with
      typed := rest
      events := d.events ++ [.asked (promptFor d.vault.session) false (some (Text.trim line))] } :
        Desk σ).perform (ofCommand (.ofLine (Text.trim line))) := by
  simp only [step, Desk.perform_bind]
  have hd : (d.perform Console.session).2 = d := rfl
  rw [hd, Console.perform_readLine, h]
  rfl

/-- A line brings about no more than its command. -/
theorem Point.prompt_result [Host σ] (d : Desk σ) :
    (d.perform (step .prompt)).1 = (.stopped, []) ∨ ∃ c typed events,
      (d.perform (step .prompt)).1 =
        (({ d with typed := typed, events := events } : Desk σ).perform (ofCommand c)).1 := by
  cases ht : d.typed with
  | nil =>
    simp only [step, Desk.perform_bind]
    have hd : (d.perform Console.session).2 = d := rfl
    rw [hd, Console.perform_readLine, ht]
    exact Or.inl rfl
  | cons line rest => exact Or.inr ⟨_, _, _, congrArg Prod.fst (prompt_line ht)⟩

end

namespace Process
variable [Host σ]

/-- The process that a step leaves. -/
def left (r : (Point × List Deed) × Desk σ) : Process σ := ⟨r.1.1, r.2⟩

theorem advance_eq (p : Process σ) : p.advance = left (p.desk.perform p.point.step) := rfl

theorem keep_reaches (d : Desk σ) (userId token : String) (secret : Secret) (lines : List Line) :
    Reaches ⟨.keep userId token secret lines, d⟩ ⟨.prompt, (d.perform (do
      Account.save userId token secret
      Attempt.tell lines : Attempt σ Unit).run).2⟩ :=
  .step (.refl _)

theorem register_reaches (d : Desk σ) :
    Reaches (left (d.perform (Point.ofCommand .register)))
      ⟨.prompt, (d.perform Account.register).2⟩ := by
  rw [Point.ofCommand, Point.perform_orTell, Account.register, Console.perform_attempt,
    Attempt.perform_bind]
  rcases d.perform Account.requestRegistration.run with ⟨f | r, d'⟩
  · exact .refl _
  · exact keep_reaches d' _ _ _ _

theorem search_eq (d : Desk σ) (r : Grant) : advance ⟨.search r, d⟩ =
    match d.perform (Account.seekSecret r.userId) with
      | (some secret, d') => ⟨.keep r.userId r.token secret (Account.loginLines r), d'⟩
      | (none, d') => ⟨.entry r, d'⟩ := by
  rw [advance, step, Point.step, Desk.perform_bind]
  rcases d.perform (Account.seekSecret r.userId) with ⟨secret | _, d'⟩ <;> rfl

/-- After a granted login the secret is looked for, entered if need be, and kept. -/
theorem search_reaches (d : Desk σ) (r : Grant) :
    Reaches ⟨.search r, d⟩ ⟨.prompt, (d.perform (Console.attempt "Login failed" do
      let secret ← Account.findSecret r.userId
      Account.save r.userId r.token secret
      Attempt.tell (Account.loginLines r))).2⟩ := by
  have hfind : d.perform (Account.findSecret r.userId).run =
      match d.perform (Account.seekSecret r.userId) with
      | (some secret, d') => (.ok secret, d')
      | (none, d') => d'.perform Account.askSecret.run := by
    rw [Account.findSecret, Attempt.perform_bind, Attempt.surely_run]
    rcases d.perform (Account.seekSecret r.userId) with ⟨secret | _, d'⟩ <;> rfl
  refine .step ?_
  rw [Console.perform_attempt, Attempt.perform_bind, hfind, search_eq]
  rcases d.perform (Account.seekSecret r.userId) with ⟨_ | secret, d'⟩
  · refine .step ?_
    simp only [advance, step, Point.step, Point.perform_orTell]
    rcases d'.perform Account.askSecret.run with ⟨f | secret, d''⟩
    · exact .refl _
    · exact keep_reaches d'' _ _ _ _
  · exact keep_reaches d' _ _ _ _

theorem login_reaches (d : Desk σ) :
    Reaches (left (d.perform (Point.ofCommand .login))) ⟨.prompt, (d.perform Account.login).2⟩ := by
  rw [Point.ofCommand, Point.perform_orTell, Account.login, Console.perform_attempt,
    Attempt.perform_bind]
  rcases d.perform Account.requestGrant.run with ⟨f | r, d'⟩
  · exact .refl _
  · have h := search_reaches d' r
    rw [Console.perform_attempt] at h
    exact h

/-- A process that runs a command comes back to its prompt, or stops, with the desk that the command
leaves. -/
theorem command_reaches (c : Command) (d : Desk σ) :
    Reaches (left (d.perform (Point.ofCommand c)))
      ⟨Point.ofNext (d.perform (Console.execute c)).1, (d.perform (Console.execute c)).2⟩ := by
  cases c with
  | register => exact register_reaches d
  | login => exact login_reaches d
  | logout => exact .step (.refl _)
  | _ => exact .refl _

theorem loop_reaches {lines : Nat} {d : Desk σ} (h : d.typed.length < lines) :
    Reaches ⟨.prompt, d⟩ ⟨.stopped, (d.perform (Console.loop lines)).2⟩ := by
  induction lines generalizing d with
  | zero => cases h
  | succ lines ih =>
    refine .step ?_
    rw [advance_eq]
    simp only [Point.step, Console.loop, Desk.perform_bind]
    have hd : (d.perform Console.session).2 = d := rfl
    rw [hd]
    have hread := Console.perform_readLine d (promptFor (d.perform Console.session).1) false
    cases ht : d.typed with
    | nil =>
      rw [ht] at hread
      rw [hread]
      exact .refl _
    | cons line rest =>
      rw [ht] at hread
      rw [hread]
      simp only [Console.dispatch]
      generalize hd' : ({ d with typed := rest, events := _ } : Desk σ) = d'
      have hlater : (d'.perform (Console.execute (.ofLine (Text.trim line)))).2.typed.length <
          lines := by
        have hsuffix := (Console.execute_typedOn (.ofLine (Text.trim line))).step d'
        have hle := hsuffix.length_le
        rw [ht, List.length_cons] at h
        rw [← hd'] at hle ⊢
        exact Nat.lt_of_le_of_lt hle (Nat.lt_of_succ_lt_succ h)
      refine (command_reaches (.ofLine (Text.trim line)) d').trans ?_
      rw [Desk.perform_bind]
      generalize d'.perform (Console.execute (.ofLine (Text.trim line))) = executed at hlater ⊢
      obtain ⟨next, d''⟩ := executed
      cases next with
      | leave => exact .refl _
      | goOn => exact ih hlater

/-- A process alone does what the console does: it loads, and runs. -/
theorem alone_runs_console (d : Desk σ) :
    Reaches ⟨.start, d⟩ ⟨.stopped, (({ d with vault := d.vault.load.2 } : Desk σ).perform
      (Console.run d.vault.load.1)).2⟩ := by
  refine .step ?_
  exact loop_reaches (Nat.lt_succ_self _)

end Process
end SignedConsole
