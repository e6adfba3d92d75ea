import SignedConsole.Proofs.Commands
import SignedConsole.Proofs.SimilarCalls

namespace SignedConsole

/-- Whether the prompt that took a line was a hidden one, if a line was taken. -/
def Event.hides? : Event → Option Bool
  | .asked _ hidden (some _) => some hidden
  | .asked _ _ none | .printed _ | .cleared => none

/-- For each line that was taken, whether a hidden prompt took it. -/
def hiddenLines (told : List Event) : List Bool := told.filterMap Event.hides?

/-- An event without the line that was typed. -/
def Event.seen : Event → Event
  | .asked prompt hidden answer => .asked prompt hidden (answer.map fun _ => "")
  | .printed line => .printed line
  | .cleared => .cleared

/-- Lines that are typed in place of others: as many, and each that is not hidden is like the one
that it stands for. -/
structure Retyped (like : String → String → Prop) (hidden : List Bool) (xs ys : List String) :
    Prop where
  length : ys.length = xs.length
  line : ∀ (i : Nat) x y, xs[i]? = some x → ys[i]? = some y →
    hidden[i]? = some true ∨ like (Text.trim x) (Text.trim y)

section
variable {like : String → String → Prop} {hidden : List Bool} {x : String} {xs ys : List String}

theorem Retyped.of_nil (h : Retyped like hidden [] ys) : ys = [] :=
  List.eq_nil_of_length_eq_zero h.length

/-- The next line stands for the next, and the others stand for the others. -/
theorem Retyped.of_cons {flag : Bool} (h : Retyped like (flag :: hidden) (x :: xs) ys) :
    ∃ y rest, ys = y :: rest ∧ (flag = true ∨ like (Text.trim x) (Text.trim y)) ∧
      Retyped like hidden xs rest := by
  obtain ⟨hlength, hline⟩ := h
  cases ys with
  | nil => cases hlength
  | cons y rest =>
    refine ⟨y, rest, rfl, ?_, Nat.succ.inj hlength, fun i => hline (i + 1)⟩
    simpa using hline 0 x y rfl rfl

end

/-- Requests are signed with a shared secret, and that is what is stored. -/
structure Desk.Keyed (d : Desk σ) : Prop where
  signer : d.client.signer = .hmac
  scheme : d.vault.scheme = .hmac

/-- Desks that have come as far as each other, with other lines typed. Those that are still to come
stand for each other, and since some requests that are the same the requests have been similar. -/
structure Desk.Abreast (like : String → String → Prop) (base : List Request)
    (V : Vault σ → Vault σ → Prop) (hidden : List Bool) (d e : Desk σ) : Prop where
  client : e.client = d.client
  vault : V d.vault e.vault
  wire : Wire.Paired Request.Similar base d.wire e.wire
  now : e.now = d.now
  typed : Retyped like hidden d.typed e.typed
  events : e.events.map Event.seen = d.events.map Event.seen

/-- Programs that come to related results, and go on abreast, where the lines that the first one
takes stand for those that the other one takes. -/
def Console.Leads (like : String → String → Prop) (base : List Request)
    (V W : Vault σ → Vault σ → Prop) (Q : α → α → Prop) (act other : Console σ α) : Prop :=
  ∀ d : Desk σ, d.Keyed → (d.perform act).2.Keyed ∧
    ∃ told, (d.perform act).2.events = d.events ++ told ∧ ∀ e hidden,
      d.Abreast like base V (hiddenLines told ++ hidden) e →
        Q (d.perform act).1 (e.perform other).1 ∧
        (d.perform act).2.Abreast like base W hidden (e.perform other).2

/-- Programs that come to related results and keep their vaults the same. -/
def Console.Blind (like : String → String → Prop) (base : List Request) (Q : α → α → Prop)
    (act other : Console σ α) : Prop := Leads like base Eq Eq Q act other

def Attempt.Leads (like : String → String → Prop) (base : List Request)
    (V W : Vault σ → Vault σ → Prop) (Q : α → α → Prop) (act other : Attempt σ α) : Prop :=
  Console.Leads like base V W (ResultsAlike Q) act.run other.run

def Attempt.Blind (like : String → String → Prop) (base : List Request) (Q : α → α → Prop)
    (act other : Attempt σ α) : Prop := Leads like base Eq Eq Q act other

variable {like : String → String → Prop} {base : List Request} {V W U : Vault σ → Vault σ → Prop}

namespace Console

/-- A program that does nothing, where more is let differ behind it. -/
theorem Leads.rest {Q : α → α → Prop} {a b : α} (hvw : ∀ v w, V v w → W v w) (h : Q a b) :
    Leads like base V W Q (pure a) (pure b) := by
  refine fun d hd => ⟨hd, [], (List.append_nil d.events).symm, ?_⟩
  rintro e hidden ⟨hclient, hvault, hwire, hnow, htyped, hevents⟩
  exact ⟨h, hclient, hvw _ _ hvault, hwire, hnow, htyped, hevents⟩

theorem Leads.pure {Q : α → α → Prop} {a b : α} (h : Q a b) :
    Leads like base V V Q (pure a) (pure b) := .rest (fun _ _ hv => hv) h

/-- What the first program tells is known before the other one is, so the results have to be related
to themselves. -/
theorem Leads.bind {Q : α → α → Prop} {R : β → β → Prop} {act other : Console σ α}
    {next later : α → Console σ β} (h : Leads like base V W Q act other) (hq : ∀ a, Q a a)
    (hn : ∀ a b, Q a b → Leads like base W U R (next a) (later b)) :
    Leads like base V U R (act >>= next) (other >>= later) := by
  intro d hd
  obtain ⟨hkeyed, told, hevents, hact⟩ := h d hd
  obtain ⟨hkeyed', more, hmore, -⟩ := hn _ _ (hq (d.perform act).1) _ hkeyed
  rw [Desk.perform_bind]
  refine ⟨hkeyed', told ++ more, by rw [hmore, hevents, List.append_assoc], fun e hidden he => ?_⟩
  rw [hiddenLines, List.filterMap_append, List.append_assoc] at he
  obtain ⟨hresult, hdesk⟩ := hact e _ he
  obtain ⟨-, more', hmore', hnext⟩ := hn _ _ hresult _ hkeyed
  obtain rfl : more' = more := List.append_cancel_left (hmore'.symm.trans hmore)
  rw [Desk.perform_bind]
  exact hnext _ hidden hdesk

theorem Leads.mono {Q R : α → α → Prop} {act other : Console σ α}
    (h : Leads like base V W Q act other) (hqr : ∀ a b, Q a b → R a b) :
    Leads like base V W R act other := by
  intro d hd
  obtain ⟨hkeyed, told, hevents, hact⟩ := h d hd
  refine ⟨hkeyed, told, hevents, fun e hidden he => ?_⟩
  obtain ⟨hresult, hdesk⟩ := hact e hidden he
  exact ⟨hqr _ _ hresult, hdesk⟩

theorem tell_leads (lines : List Line) :
    Leads (σ := σ) like base V V Eq (tell lines) (tell lines) := by
  intro d hd
  have hshown : hiddenLines (lines.map Event.printed) = [] :=
    List.filterMap_eq_nil_iff.mpr fun event hm => by
      obtain ⟨line, -, rfl⟩ := List.mem_map.mp hm
      rfl
  rw [perform_tell]
  refine ⟨⟨hd.signer, hd.scheme⟩, _, rfl, ?_⟩
  rintro e hidden ⟨hclient, hvault, hwire, hnow, htyped, hevents⟩
  rw [hshown, List.nil_append] at htyped
  rw [perform_tell]
  refine ⟨rfl, hclient, hvault, hwire, hnow, htyped, ?_⟩
  rw [List.map_append, List.map_append, hevents]

theorem readLine_leads (prompt : String) (hides : Bool) :
    Leads (σ := σ) like base V V (Option.Rel fun a b => hides = true ∨ like a b)
      (readLine prompt hides) (readLine prompt hides) := by
  intro d hd
  rw [perform_readLine]
  cases htyped : d.typed with
  | nil =>
    refine ⟨⟨hd.signer, hd.scheme⟩, _, rfl, ?_⟩
    rintro e hidden ⟨hclient, hvault, hwire, hnow, hlines, hevents⟩
    rw [htyped] at hlines
    rw [perform_readLine, hlines.of_nil]
    refine ⟨.none, hclient, hvault, hwire, hnow, ⟨rfl, nofun⟩, ?_⟩
    simp [hevents]
  | cons x xs =>
    refine ⟨⟨hd.signer, hd.scheme⟩, _, rfl, ?_⟩
    rintro e hidden ⟨hclient, hvault, hwire, hnow, hlines, hevents⟩
    rw [htyped] at hlines
    obtain ⟨y, ys, hy, hlike, hrest⟩ := Retyped.of_cons hlines
    rw [perform_readLine, hy]
    refine ⟨.some hlike, hclient, hvault, hwire, hnow, hrest, ?_⟩
    simp [hevents, Event.seen]

theorem look_leads {Q : α → α → Prop} (f : Desk σ → α)
    (h : ∀ d e hidden, d.Abreast like base V hidden e → Q (f d) (f e)) :
    Leads like base V V Q (do return f (← get)) (do return f (← get)) :=
  fun d hd => ⟨hd, [], (List.append_nil d.events).symm, fun _ _ he => ⟨h _ _ _ he, he⟩⟩

theorem changeVault_leads {Q : α → α → Prop} {f g : Vault σ → α × Vault σ}
    (hscheme : ∀ v, (f v).2.scheme = v.scheme)
    (h : ∀ v w, V v w → Q (f v).1 (g w).1 ∧ W (f v).2 (g w).2) :
    Leads like base V W Q (changeVault f) (changeVault g) := by
  intro d hd
  refine ⟨⟨hd.signer, (hscheme d.vault).trans hd.scheme⟩, [], (List.append_nil d.events).symm, ?_⟩
  rintro e hidden ⟨hclient, hvault, hwire, hnow, htyped, hevents⟩
  obtain ⟨hresult, hvault⟩ := h _ _ hvault
  exact ⟨hresult, hclient, hvault, hwire, hnow, htyped, hevents⟩

end Console

theorem ResultsAlike.refl {Q : α → α → Prop} (hq : ∀ a, Q a a) (x : Except ε α) :
    ResultsAlike Q x x := by
  cases x with
  | ok a => exact .ok (hq a)
  | error e => exact .error e

namespace Attempt

theorem Leads.pure {Q : α → α → Prop} {a b : α} (h : Q a b) :
    Leads like base V V Q (pure a) (pure b) := Console.Leads.pure (.ok h)

theorem Leads.throw {Q : α → α → Prop} (f : Failure) :
    Leads (σ := σ) like base V V Q (throw f) (throw f) := Console.Leads.pure (.error f)

theorem Leads.mono {Q R : α → α → Prop} {act other : Attempt σ α}
    (h : act.Leads like base V W Q other) (hqr : ∀ a b, Q a b → R a b) :
    act.Leads like base V W R other :=
  Console.Leads.mono h fun _ _ hxy => hxy.mono hqr

/-- An attempt that fails ends with what its first part lets differ. -/
theorem Leads.bind {Q : α → α → Prop} {R : β → β → Prop} {act other : Attempt σ α}
    {next later : α → Attempt σ β} (h : act.Leads like base V W Q other) (hq : ∀ a, Q a a)
    (hwu : ∀ v w, W v w → U v w) (hn : ∀ a b, Q a b → (next a).Leads like base W U R (later b)) :
    (act >>= next).Leads like base V U R (other >>= later) := by
  unfold Attempt.Leads
  rw [ExceptT.run_bind, ExceptT.run_bind]
  refine Console.Leads.bind h (ResultsAlike.refl hq) fun x y hxy => ?_
  cases hxy with
  | ok hab => exact hn _ _ hab
  | error f => exact .rest hwu (.error f)

theorem Blind.bind {Q : α → α → Prop} {R : β → β → Prop} {act other : Attempt σ α}
    {next later : α → Attempt σ β} (h : act.Blind like base Q other) (hq : ∀ a, Q a a)
    (hn : ∀ a b, Q a b → (next a).Blind like base R (later b)) :
    (act >>= next).Blind like base R (other >>= later) :=
  Leads.bind h hq (fun _ _ hv => hv) hn

/-- What follows goes on from one result. -/
theorem Blind.then {R : β → β → Prop} {act other : Attempt σ α} {next later : α → Attempt σ β}
    (h : act.Blind like base Eq other) (hn : ∀ a, (next a).Blind like base R (later a)) :
    (act >>= next).Blind like base R (other >>= later) :=
  Blind.bind h (fun _ => rfl) fun a _ hab => hab ▸ hn a

theorem surely_leads {Q : α → α → Prop} {act other : Console σ α}
    (h : Console.Leads like base V W Q act other) :
    (surely act).Leads like base V W Q (surely other) := by
  intro d hd
  obtain ⟨hkeyed, told, hevents, hact⟩ := h d hd
  refine ⟨hkeyed, told, hevents, fun e hidden he => ?_⟩
  obtain ⟨hresult, hdesk⟩ := hact e hidden he
  exact ⟨.ok hresult, hdesk⟩

theorem tell_leads (lines : List Line) :
    (tell (σ := σ) lines).Leads like base V V Eq (tell lines) :=
  surely_leads (Console.tell_leads lines)

theorem ask_leads (hlike : ∀ a, like a a) (prompt : String) (hides : Bool) :
    (ask (σ := σ) prompt hides).Leads like base V V (fun a b => hides = true ∨ like a b)
      (ask prompt hides) := by
  refine .bind (surely_leads (Console.readLine_leads prompt hides)) (fun answer => ?_)
    (fun _ _ hv => hv) fun answer other h => ?_
  · cases answer with
    | none => exact .none
    | some a => exact .some (Or.inr (hlike a))
  · cases h with
    | none => exact .throw _
    | some h => exact .pure h

theorem call_blind {call other : Call α} (h : call.Similar other) :
    (Attempt.call (σ := σ) call).Blind like base Eq (Attempt.call other) := by
  intro d hd
  rw [call_run]
  refine ⟨⟨hd.signer, hd.scheme⟩, [], (List.append_nil d.events).symm, ?_⟩
  rintro e hidden ⟨hclient, hvault, hwire, hnow, htyped, hevents⟩
  obtain ⟨hresult, hwire⟩ := Client.run_similar hd.signer h d.now.shown d.vault.session hwire
  have hclock := d.client.clockAfter_similar h d.now d.vault.session
  rw [call_run, Desk.called, Desk.called, hclient, hnow, ← hvault, hresult, hclock]
  exact ⟨.refl (fun _ => rfl) _, rfl, rfl, hwire, rfl, htyped, hevents⟩

theorem during_leads {Q : α → α → Prop} {act other : Attempt σ α} (task : String)
    (h : act.Leads like base V W Q other) (hq : ∀ a, Q a a) :
    (during task act).Leads like base V W Q (during task other) := by
  unfold Attempt.Leads
  rw [during_run, during_run]
  refine Console.Leads.bind h (ResultsAlike.refl hq) fun x y hxy => .pure ?_
  cases hxy with
  | ok h => exact .ok h
  | error f => exact .error _

end Attempt

namespace Console

theorem attempt_leads {act other : Attempt σ Unit} (task : String)
    (h : act.Leads like base V W Eq other) :
    Leads like base V W Eq (attempt task act) (attempt task other) := by
  refine .bind (Attempt.during_leads task h fun _ => rfl) (ResultsAlike.refl fun _ => rfl)
    fun x y hxy => ?_
  cases hxy with
  | ok _ => exact .pure rfl
  | error f => exact tell_leads _

theorem attempt_blind {act other : Attempt σ Unit} (task : String)
    (h : act.Blind like base Eq other) :
    Blind like base Eq (attempt task act) (attempt task other) := attempt_leads task h

theorem authenticated_blind {act other : Console σ Unit} (h : act.Blind like base Eq other) :
    (authenticated act).Blind like base Eq (authenticated other) := by
  change Leads like base Eq Eq Eq
    ((do return (← get).vault.session.isAuthenticated) >>= fun known =>
      if known then act else tell [.error "Please login first"])
    ((do return (← get).vault.session.isAuthenticated) >>= fun known =>
      if known then other else tell [.error "Please login first"])
  refine .bind (look_leads (Q := Eq) (fun d => d.vault.session.isAuthenticated) fun d e _ he => ?_)
    (fun _ => rfl) fun known _ hk => ?_
  · rw [he.vault]
  · rw [← hk]
    cases known with
    | true => exact h
    | false => exact tell_leads _

/-- The two runs of a program that goes on abreast, from one desk. -/
theorem Leads.retyped {act : Console σ α} {d : Desk σ} {ys : List String}
    (h : Leads like d.wire.received Eq W Eq act act) (hd : d.Keyed)
    (hys : Retyped like (hiddenLines ((d.perform act).2.events.drop d.events.length)) d.typed ys) :
    (Desk.perform { d with typed := ys } act).1 = (d.perform act).1 ∧
      (d.perform act).2.Abreast like d.wire.received W []
        (Desk.perform { d with typed := ys } act).2 := by
  obtain ⟨-, told, hevents, hact⟩ := h d hd
  rw [hevents, List.drop_left] at hys
  have habreast : d.Abreast like d.wire.received Eq (hiddenLines told ++ [])
      { d with typed := ys } :=
    ⟨rfl, rfl, .refl d.wire, rfl, by rwa [List.append_nil], rfl⟩
  obtain ⟨hresult, hdesk⟩ := hact _ [] habreast
  exact ⟨hresult.symm, hdesk⟩

end Console
end SignedConsole
