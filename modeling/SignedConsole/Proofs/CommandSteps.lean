import SignedConsole.Console.Terminal

namespace SignedConsole

theorem Desk.perform_bind (d : Desk σ) (act : Console σ α) (next : α → Console σ β) :
    d.perform (act >>= next) = (d.perform act).2.perform (next (d.perform act).1) := by
  rw [Desk.perform, StateT.run_bind]
  rfl

theorem Console.perform_readLine (d : Desk σ) (prompt : String) (hidden : Bool) :
    d.perform (readLine prompt hidden) = match d.typed with
      | [] => (none, { d with events := d.events ++ [.asked prompt hidden none] })
      | line :: rest => (some (Text.trim line), { d with
          typed := rest
          events := d.events ++ [.asked prompt hidden (some (Text.trim line))] }) := by
  obtain ⟨client, vault, wire, now, typed, events⟩ := d
  cases typed <;> rfl

theorem Console.perform_tell (d : Desk σ) (lines : List Line) :
    d.perform (tell lines) = ((), { d with events := d.events ++ lines.map Event.printed }) := rfl

/-- The desk once a call has been made from it. -/
def Desk.called (d : Desk σ) (c : Call α) : Desk σ :=
  { d with
    wire := (d.client.run d.now.shown d.vault.session c d.wire).2
    now := d.client.clockAfter d.now d.vault.session c }

/-- A call changes the wire and the clock, and nothing else. -/
theorem Attempt.call_run (c : Call α) (d : Desk σ) : d.perform (call c).run =
    ((d.client.run d.now.shown d.vault.session c d.wire).1.mapError Failure.call, d.called c) := by
  rw [Attempt.call, ExceptT.run_bind, Desk.perform_bind, Desk.called]
  change Desk.perform d (ExceptT.run _) = _
  rcases d.client.run d.now.shown d.vault.session c d.wire with ⟨r | a, wire⟩ <;> rfl

theorem Attempt.during_run (task : String) (act : Attempt σ α) :
    (during task act).run = act.run >>= fun r => pure (r.mapError (Failure.during task)) := by
  simp only [during, tryCatch, tryCatchThe, MonadExceptOf.tryCatch, ExceptT.tryCatch, ExceptT.run,
    ExceptT.mk]
  congr 1
  funext r
  cases r <;> rfl

theorem Attempt.perform_during (d : Desk σ) (task : String) (act : Attempt σ α) :
    d.perform (during task act).run =
      ((d.perform act.run).1.mapError (Failure.during task), (d.perform act.run).2) := by
  rw [during_run, Desk.perform_bind]
  rfl

/-- Whether a relation holds from before a step to after it. -/
structure Console.Keeps (R : Desk σ → Desk σ → Prop) (act : Console σ α) : Prop where
  step : ∀ d : Desk σ, R d (d.perform act).2

/-- Whether a relation holds across an attempt, even where it fails. -/
def Attempt.Keeps (R : Desk σ → Desk σ → Prop) (act : Attempt σ α) : Prop :=
  Console.Keeps R act.run

/-- The line that came back for a prompt. -/
def Event.answer? : Event → Option String
  | .asked _ _ answer => answer
  | .printed _ | .cleared => none

/-- A relation to later desks that is kept by lines that are read, by the events of a kind and by the
calls of a kind. A line is taken and its answer recorded in one. -/
class Watched (tells : outParam (Event → Prop)) (makes : outParam ((α : Type) → Call α → Prop))
    (R : Desk σ → Desk σ → Prop) : Prop where
  refl : ∀ d, R d d
  trans : ∀ {d d' d''}, R d d' → R d' d'' → R d d''
  recorded : ∀ d events, (∀ e ∈ events, tells e ∧ e.answer? = none) →
    R d { d with events := d.events ++ events }
  read : ∀ d prompt hidden line rest, d.typed = line :: rest →
    tells (.asked prompt hidden (some (Text.trim line))) → R d { d with
      typed := rest
      events := d.events ++ [.asked prompt hidden (some (Text.trim line))] }
  called : ∀ {α : Type} d (c : Call α), makes α c → R d (d.called c)

/-- All that has been told and asked since is of a kind. -/
def Desk.Told (p : Event → Prop) (d d' : Desk σ) : Prop :=
  ∃ events, d'.events = d.events ++ events ∧ ∀ e ∈ events, p e

instance (p : Event → Prop) : Watched p (fun _ _ => True) (@Desk.Told σ p) where
  refl _ := ⟨[], by simp⟩
  trans := by
    rintro d d' d'' ⟨events, he, hp⟩ ⟨later, hl, hq⟩
    refine ⟨events ++ later, by rw [hl, he, List.append_assoc], ?_⟩
    intro e hm
    rcases List.mem_append.mp hm with hm | hm
    · exact hp e hm
    · exact hq e hm
  recorded _ events h := ⟨events, rfl, fun e he => (h e he).1⟩
  read _ _ _ _ _ _ h := ⟨_, rfl, fun _ he => (List.mem_singleton.mp he) ▸ h⟩
  called d _ _ := ⟨[], (List.append_nil d.events).symm, nofun⟩

/-- Nothing has been sent since. -/
def Desk.SameWire (d d' : Desk σ) : Prop := d'.wire = d.wire

instance : Watched (fun _ => True) (fun _ _ => False) (@Desk.SameWire σ) where
  refl _ := rfl
  trans h h' := Eq.trans h' h
  recorded _ _ _ := rfl
  read _ _ _ _ _ _ _ := rfl
  called _ _ h := h.elim

namespace Watched

variable {tells : Event → Prop} {makes : (α : Type) → Call α → Prop}
  {R : Desk σ → Desk σ → Prop} [watched : Watched tells makes R]

include watched

theorem pure (a : α) : Console.Keeps R (pure a) := ⟨fun d => refl d⟩

theorem bind {act : Console σ α} {next : α → Console σ β} (h : Console.Keeps R act)
    (hn : ∀ a, Console.Keeps R (next a)) : Console.Keeps R (act >>= next) := by
  constructor
  intro d
  rw [Desk.perform_bind]
  exact trans (h.step d) ((hn _).step _)

theorem get : Console.Keeps R get := ⟨fun d => refl d⟩

theorem session : Console.Keeps R Console.session := ⟨fun d => refl d⟩

theorem record {events : List Event} (h : ∀ e ∈ events, tells e ∧ e.answer? = none) :
    Console.Keeps R (Console.record events) := ⟨fun d => recorded d events h⟩

theorem tell {lines : List Line} (h : ∀ l ∈ lines, tells (.printed l)) :
    Console.Keeps R (Console.tell lines) := by
  apply record
  intro e he
  obtain ⟨l, hl, rfl⟩ := List.mem_map.mp he
  exact ⟨h l hl, rfl⟩

theorem readLine {prompt : String} {hidden : Bool}
    (h : ∀ answer, tells (.asked prompt hidden answer)) :
    Console.Keeps R (Console.readLine prompt hidden) := by
  constructor
  intro d
  rw [Console.perform_readLine]
  cases ht : d.typed with
  | nil =>
    have hasked : R d { d with events := d.events ++ [.asked prompt hidden none] } :=
      recorded d _ fun e he => (List.mem_singleton.mp he) ▸ ⟨h none, rfl⟩
    rwa [ht] at hasked
  | cons line rest => exact read d prompt hidden line rest ht (h _)

theorem done (a : α) : Attempt.Keeps R (Pure.pure a) := Watched.pure (R := R) (Except.ok a)

theorem throw (f : Failure) : Attempt.Keeps R (throw f : Attempt σ α) := ⟨fun d => refl d⟩

theorem desk : Attempt.Keeps R MonadState.get := ⟨fun d => refl d⟩

theorem andThen {act : Attempt σ α} {next : α → Attempt σ β} (h : act.Keeps R)
    (hn : ∀ a, (next a).Keeps R) : (act >>= next).Keeps R := by
  unfold Attempt.Keeps
  rw [ExceptT.run_bind]
  refine Watched.bind h fun r => ?_
  cases r with
  | ok a => exact hn a
  | error f => exact Watched.pure _

omit watched in
theorem surely {act : Console σ α} (h : Console.Keeps R act) : (Attempt.surely act).Keeps R :=
  ⟨fun d => h.step d⟩

theorem say {lines : List Line} (h : ∀ l ∈ lines, tells (.printed l)) :
    (Attempt.tell (σ := σ) lines).Keeps R := surely (tell h)

theorem ask {prompt : String} {hidden : Bool} (h : ∀ answer, tells (.asked prompt hidden answer)) :
    (Attempt.ask (σ := σ) prompt hidden).Keeps R := by
  refine andThen (surely (readLine h)) fun answer => ?_
  cases answer with
  | some line => exact done line
  | none => exact throw _

theorem call {c : Call α} (h : makes α c) : (Attempt.call (σ := σ) c).Keeps R := by
  constructor
  intro d
  rw [Attempt.call_run]
  exact called d c h

theorem during (task : String) {act : Attempt σ α} (h : act.Keeps R) :
    (Attempt.during task act).Keeps R := by
  unfold Attempt.Keeps
  rw [Attempt.during_run]
  exact Watched.bind h fun r => Watched.pure _

theorem attempt (task : String) {act : Attempt σ Unit} (h : act.Keeps R)
    (he : ∀ text, tells (.printed (.error text))) : Console.Keeps R (Console.attempt task act) := by
  refine Watched.bind (during task h) fun r => ?_
  cases r with
  | ok _ => exact Watched.pure _
  | error f =>
    refine tell fun l hl => ?_
    rw [List.mem_singleton.mp hl]
    exact he _

end Watched
end SignedConsole
