import SignedConsole.Proofs.AlikeRequests
import SignedConsole.Proofs.VeiledStorage

namespace SignedConsole

open Storage (Veils)

/-- Desks that differ in a shared secret at most, and in the signatures that have been sent with it
since some requests that are the same. -/
structure Desk.Alike [Storage σ] [Veils σ] (base : List Request) (d e : Desk σ) : Prop where
  client : e.client = d.client
  signer : d.client.signer = .hmac
  vault : d.vault.Alike e.vault
  wire : Wire.Paired Request.Alike base d.wire e.wire
  now : e.now = d.now
  typed : e.typed = d.typed
  events : e.events = d.events

/-- Programs that come to related results on desks that are alike, and leave them alike. -/
def Console.Agree [Storage σ] [Veils σ] (base : List Request) (Q : α → β → Prop)
    (act : Console σ α) (other : Console σ β) : Prop :=
  ∀ d e : Desk σ, d.Alike base e → Q (d.perform act).1 (e.perform other).1 ∧
    (d.perform act).2.Alike base (e.perform other).2

/-- Attempts that fail alike, or come to related results. -/
def Attempt.Agree [Storage σ] [Veils σ] (base : List Request) (Q : α → β → Prop)
    (act : Attempt σ α) (other : Attempt σ β) : Prop :=
  Console.Agree base (ResultsAlike Q) act.run other.run

section
variable {σ : Type} [Storage σ] [Veils σ] {base : List Request}

theorem Desk.Alike.resembles {d e : Desk σ} (h : d.Alike base e) : d.Resembles e :=
  ⟨h.client, h.vault.same, h.vault.session, h.typed⟩

theorem Desk.Alike.record {d e : Desk σ} (h : d.Alike base e) (events : List Event) :
    Desk.Alike base { d with events := d.events ++ events }
      { e with events := e.events ++ events } :=
  ⟨h.client, h.signer, h.vault, h.wire, h.now, h.typed, by rw [h.events]⟩

namespace Console

theorem Agree.pure {Q : α → β → Prop} {a : α} {b : β} (h : Q a b) :
    Agree (σ := σ) base Q (pure a) (pure b) := fun _ _ hd => ⟨h, hd⟩

theorem Agree.bind {Q : α → β → Prop} {R : γ → δ → Prop} {act : Console σ α} {other : Console σ β}
    {next : α → Console σ γ} {later : β → Console σ δ} (h : Agree base Q act other)
    (hn : ∀ a b, Q a b → Agree base R (next a) (later b)) :
    Agree base R (act >>= next) (other >>= later) := by
  intro d e hd
  rw [Desk.perform_bind, Desk.perform_bind]
  obtain ⟨hresult, hdesk⟩ := h d e hd
  exact hn _ _ hresult _ _ hdesk

theorem Agree.mono {Q R : α → β → Prop} {act : Console σ α} {other : Console σ β}
    (h : Agree base Q act other) (hqr : ∀ a b, Q a b → R a b) : Agree base R act other := by
  intro d e hd
  obtain ⟨hresult, hdesk⟩ := h d e hd
  exact ⟨hqr _ _ hresult, hdesk⟩

theorem Agree.changeVault {Q : α → β → Prop} {f : Vault σ → α × Vault σ} {g : Vault σ → β × Vault σ}
    (h : ∀ v w, v.Alike w → Q (f v).1 (g w).1 ∧ (f v).2.Alike (g w).2) :
    Agree base Q (changeVault f) (changeVault g) := by
  intro d e hd
  obtain ⟨hresult, hvault⟩ := h d.vault e.vault hd.vault
  exact ⟨hresult, hd.client, hd.signer, hvault, hd.wire, hd.now, hd.typed, hd.events⟩

theorem session_agree : Agree (σ := σ) base Session.Alike session session :=
  fun _ _ hd => ⟨hd.vault.session, hd⟩

theorem desk_agree : Agree (σ := σ) base (Desk.Alike base) get get := fun _ _ hd => ⟨hd, hd⟩

/-- A plain program comes to the same on desks that are alike. -/
theorem Plain.agree {act : Console σ α} (h : Plain anyCall act) : Agree base Eq act act := by
  induction h with
  | pure a => exact .pure rfl
  | bind _ _ ih ihn =>
    refine ih.bind fun a b hab => ?_
    rw [hab]
    exact ihn b
  | record _ => exact fun d e hd => ⟨rfl, hd.record _⟩
  | readLine prompt hidden =>
    rintro d e ⟨hclient, hsigner, hvault, hwire, hnow, htyped, hevents⟩
    rw [perform_readLine, perform_readLine, htyped, hevents]
    cases d.typed with
    | nil => exact ⟨rfl, hclient, hsigner, hvault, hwire, hnow, rfl, rfl⟩
    | cons line rest => exact ⟨rfl, hclient, hsigner, hvault, hwire, hnow, rfl, rfl⟩
  | look f hf => exact fun d e hd => ⟨(hf d e hd.resembles).symm, hd⟩
  | @call _ c _ =>
    intro d e hd
    obtain ⟨hresult, hwire⟩ := Client.run_alike hd.signer hd.vault.session d.now.shown c hd.wire
    have hclock := d.client.clockAfter_alike hd.vault.session d.now c
    rw [Attempt.call_run, Attempt.call_run, Desk.called, Desk.called, hd.client, hd.now, hresult,
      hclock]
    exact ⟨rfl, rfl, hd.signer, hd.vault, hwire, rfl, hd.typed, hd.events⟩

theorem tell_agree (lines : List Line) : Agree (σ := σ) base Eq (tell lines) (tell lines) :=
  Plain.agree (.tell lines)

end Console

namespace Attempt

theorem Agree.bind {Q : α → β → Prop} {R : γ → δ → Prop} {act : Attempt σ α} {other : Attempt σ β}
    {next : α → Attempt σ γ} {later : β → Attempt σ δ} (h : act.Agree base Q other)
    (hn : ∀ a b, Q a b → (next a).Agree base R (later b)) :
    (act >>= next).Agree base R (other >>= later) := by
  unfold Attempt.Agree
  rw [ExceptT.run_bind, ExceptT.run_bind]
  refine Console.Agree.bind h fun x y hxy => ?_
  cases hxy with
  | ok hab => exact hn _ _ hab
  | error f => exact .pure (.error f)

theorem Agree.pure {Q : α → β → Prop} {a : α} {b : β} (h : Q a b) :
    Agree (σ := σ) base Q (pure a) (pure b) := Console.Agree.pure (.ok h)

theorem Agree.surely {Q : α → β → Prop} {act : Console σ α} {other : Console σ β}
    (h : act.Agree base Q other) : (surely act).Agree base Q (surely other) := by
  change Console.Agree base _ (act >>= fun a => Pure.pure (Except.ok a))
    (other >>= fun b => Pure.pure (Except.ok b))
  exact Console.Agree.bind h fun a b hab => .pure (.ok hab)

theorem Plain.agree {act : Attempt σ α} (h : act.Plain anyCall) : act.Agree base Eq act := by
  refine Console.Agree.mono (Console.Plain.agree h) fun x y hxy => ?_
  rw [hxy]
  cases y with
  | ok a => exact .ok rfl
  | error f => exact .error f

theorem tell_agree (lines : List Line) : (tell (σ := σ) lines).Agree base Eq (tell lines) :=
  .surely (Console.tell_agree lines)

theorem desk_agree : Agree (σ := σ) base (Desk.Alike base) get get := .surely Console.desk_agree

end Attempt

theorem Console.Agree.attempt {act other : Attempt σ Unit} (task : String)
    (h : act.Agree base Eq other) : Agree base Eq (attempt task act) (attempt task other) := by
  unfold Console.attempt
  rw [Attempt.during_run, Attempt.during_run]
  refine .bind (Q := Eq) (.bind h fun x y hxy => .pure ?_) fun x y hxy => ?_
  · cases hxy with
    | ok hab => rw [hab]
    | error f => rfl
  · rw [hxy]
    cases y with
    | ok _ => exact .pure rfl
    | error f => exact tell_agree _

end

variable {σ : Type} [Host σ] [Veils σ] {base : List Request}

open Console (Agree Plain desk_agree session_agree tell_agree)

namespace Account

theorem save_agree {s t : Secret} (h : s.Alike t) (userId token : String) :
    (save (σ := σ) userId token s).Agree base Eq (save userId token t) :=
  .surely (.changeVault fun _ _ hv => ⟨rfl, hv.save userId token h⟩)

theorem register_agree : Agree (σ := σ) base Eq register register := by
  refine .attempt _ (.bind requestRegistration_plain.agree fun r _ hr => ?_)
  rw [← hr]
  exact .bind (save_agree rfl r.userId r.token) fun _ _ _ => Attempt.tell_agree _

/-- That a secret is kept for a user is told, and not which. -/
theorem seekSecret_agree (userId : String) :
    Agree (σ := σ) base (Option.Rel Secret.Alike) (seekSecret userId) (seekSecret userId) := by
  refine .bind (.changeVault fun _ _ hv => hv.storedSecret userId) fun found other h => ?_
  cases h with
  | none => exact .bind (tell_agree _) fun _ _ _ => .pure .none
  | some h => exact .bind (tell_agree _) fun _ _ _ => .pure (.some h)

/-- A shared secret is asked for, and no file is read. -/
theorem askSecret_agree : (askSecret (σ := σ)).Agree base Secret.Alike askSecret := by
  refine .bind Attempt.desk_agree fun d e hd => ?_
  rw [hd.vault.same, hd.vault.scheme]
  refine .bind (Attempt.Plain.agree (.ask _ _)) fun line _ hline => .pure ?_
  rw [hline]
  rfl

theorem findSecret_agree (userId : String) :
    (findSecret (σ := σ) userId).Agree base Secret.Alike (findSecret userId) := by
  refine .bind (.surely (seekSecret_agree userId)) fun found other h => ?_
  cases h with
  | none => exact askSecret_agree
  | some h => exact .pure h

theorem login_agree : Agree (σ := σ) base Eq login login := by
  refine .attempt _ (.bind requestGrant_plain.agree fun r _ hr => ?_)
  rw [← hr]
  exact .bind (findSecret_agree r.userId) fun s t hst =>
    .bind (save_agree hst r.userId r.token) fun _ _ _ => Attempt.tell_agree _

theorem logout_agree : Agree (σ := σ) base Eq logout logout :=
  .bind (Q := Eq) (.changeVault fun _ _ hv => ⟨rfl, hv.clear⟩) fun _ _ _ => tell_agree _

theorem isOnline_agree : Agree (σ := σ) base Eq isOnline isOnline := by
  intro d e hd
  obtain ⟨hreply, hwire⟩ := d.client.health_paired d.client.healthDraft_alike.request hd.wire
  have hasked (u : Desk σ) : u.perform isOnline =
      ((u.client.health u.wire).1.toOption.getD false,
        { u with wire := (u.client.health u.wire).2 }) := rfl
  rw [hasked, hasked, hd.client, hreply]
  exact ⟨rfl, rfl, hd.signer, hd.vault, hwire, hd.now, hd.typed, hd.events⟩

/-- The status tells whether there is a secret. -/
theorem statusLines_alike {s t : Session} (h : s.Alike t) (scheme : Scheme) (c : Client)
    (online : Bool) : statusLines t scheme c online = statusLines s scheme c online := by
  simp only [statusLines, Session.isAuthenticated, Session.canSign, h.userId, h.token, h.secret]
  rfl

theorem status_agree : Agree (σ := σ) base Eq status status := by
  refine .bind session_agree fun s t hst => .bind isOnline_agree fun online _ ho =>
    .bind desk_agree fun d e hd => ?_
  rw [← ho, hd.vault.same, hd.client, statusLines_alike hst]
  exact tell_agree _

end Account

namespace Console

theorem execute_agree (c : Command) : Agree (σ := σ) base Eq (execute c) (execute c) := by
  by_cases hs : c = .status
  · rw [hs]
    exact .bind Account.status_agree fun _ _ _ => .pure rfl
  cases hv : c.reachesVault with
  | false => exact (execute_plain hv hs).agree
  | true =>
    cases c with
    | register => exact .bind Account.register_agree fun _ _ _ => .pure rfl
    | login => exact .bind Account.login_agree fun _ _ _ => .pure rfl
    | logout => exact .bind Account.logout_agree fun _ _ _ => .pure rfl
    | _ => cases hv

theorem loop_agree (lines : Nat) : Agree (σ := σ) base Eq (loop lines) (loop lines) := by
  induction lines with
  | zero => exact .pure rfl
  | succ lines ih =>
    refine .bind session_agree fun s t hst => ?_
    rw [promptFor, promptFor, hst.user]
    refine .bind (Plain.agree (.readLine _ _)) fun answer _ ha => ?_
    rw [← ha]
    cases answer with
    | none => exact .pure rfl
    | some line =>
      refine .bind (execute_agree (.ofLine line)) fun next _ hn => ?_
      rw [← hn]
      cases next with
      | leave => exact .pure rfl
      | goOn => exact ih

theorem run_agree (restored : Bool) : Agree (σ := σ) base Eq (run restored) (run restored) := by
  refine .bind session_agree fun s t hst => ?_
  rw [hst.user]
  refine .bind (tell_agree _) fun _ _ _ => .bind desk_agree fun d e hd => ?_
  rw [hd.typed]
  exact loop_agree _

/-- Two runs of the console that start with vaults alike, and are typed and answered the same. They
tell and ask the same and read the same lines, they read the clock as often, and the requests that
they send are the same but for the signatures, of 43 characters each. What they leave differs in the
secret at most, and so does what a later start finds there. -/
theorem run_hides_secret (d : Desk σ) {w : Vault σ} (hc : d.client.signer = .hmac)
    (hv : d.vault.Alike w) (restored : Bool) :
    let last := (d.perform (run restored)).2
    let other := (Desk.perform { d with vault := w } (run restored)).2
    other.events = last.events ∧ other.typed = last.typed ∧ other.now = last.now ∧
    (∃ sent others, last.wire.received = d.wire.received ++ sent ∧
      other.wire.received = d.wire.received ++ others ∧ List.Forall₂ Request.Alike sent others) ∧
    last.vault.Alike other.vault ∧ other.vault.load.1 = last.vault.load.1 ∧
    last.vault.load.2.Alike other.vault.load.2 := by
  intro last other
  have hstart : d.Alike d.wire.received { d with vault := w } :=
    ⟨rfl, hc, hv, .refl d.wire, rfl, rfl, rfl⟩
  obtain ⟨_, hlast⟩ := run_agree restored _ _ hstart
  exact ⟨hlast.events, hlast.typed, hlast.now, hlast.wire.received, hlast.vault,
    hlast.vault.load⟩

/-- A user logs in again and deletes a store, with either of two secrets that are kept for her. The
signatures tell the two runs apart, and nothing else does. -/
theorem run_with_either_secret :
    let vault (secret : String) : Vault (Beside Memory) :=
      (Vault.closed ⟨.empty, .empty []⟩ .hmac).save "alice" "jwt" ⟨secret⟩
    let d : Desk (Beside Memory) := ⟨.of "http://api.test" .hmac .failOpen, vault "sk_one",
      ⟨true, [.reply 200 (Text.utf8 "\x7b\"user_id\":\"alice\",\"token\":\"jwt\"\x7d")],
        .reply 200 [], []⟩, 1, ["login", "alice@example.com", "pw", "kv delete a"], []⟩
    (vault "sk_one").Alike (vault "sk_two") ∧ ∃ last other, d.perform (run true) = ((), last) ∧
      Desk.perform { d with vault := vault "sk_two" } (run true) = ((), other) ∧
      other.events = last.events ∧
      List.Forall₂ Request.Alike last.wire.received other.wire.received ∧
      last.wire.received ≠ other.wire.received := by
  intro vault d
  have hvault : (vault "sk_one").Alike (vault "sk_two") :=
    (Vault.Alike.refl rfl).save "alice" "jwt" rfl
  have hruns := run_hides_secret d rfl hvault true
  have htold : (d.perform (run true)).2.wire.received ≠
      (Desk.perform { d with vault := vault "sk_two" } (run true)).2.wire.received := by
    decide +kernel
  generalize d.perform (run true) = x at hruns htold ⊢
  generalize Desk.perform { d with vault := vault "sk_two" } (run true) = y at hruns htold ⊢
  obtain ⟨⟨⟩, last⟩ := x
  obtain ⟨⟨⟩, other⟩ := y
  obtain ⟨hevents, _, _, ⟨sent, others, hsent, hothers, hrequests⟩, _⟩ := hruns
  refine ⟨hvault, last, other, rfl, rfl, hevents, ?_, htold⟩
  rw [hsent, hothers]
  exact hrequests

end Console
end SignedConsole
