import SignedConsole.Proofs.PlainPrograms

namespace SignedConsole

/-- A relation to later desks that is kept by all that a desk does without its vault. -/
class Lasting (R : Desk σ → Desk σ → Prop) : Prop where
  refl : ∀ d, R d d
  trans : ∀ {d d' d''}, R d d' → R d' d'' → R d d''
  recorded : ∀ d events, (∀ e ∈ events, e.answer? = none) →
    R d { d with events := d.events ++ events }
  read : ∀ d prompt hidden line rest, d.typed = line :: rest → R d { d with
    typed := rest
    events := d.events ++ [.asked prompt hidden (some (Text.trim line))] }
  called : ∀ {α : Type} d (c : Call α), R d (d.called c)
  probed : ∀ d, R d { d with wire := (d.client.health d.wire).2 }

/-- The vault is the same. -/
def Desk.SameVault (d d' : Desk σ) : Prop := d'.vault = d.vault

instance : Lasting (@Desk.SameVault σ) where
  refl _ := rfl
  trans h h' := Eq.trans h' h
  recorded _ _ _ := rfl
  read _ _ _ _ _ _ := rfl
  called _ _ := rfl
  probed _ := rfl

/-- Lines have been taken from the front of those still to be typed. -/
def Desk.TypedOn (d d' : Desk σ) : Prop := d'.typed <:+ d.typed

instance : Lasting (@Desk.TypedOn σ) where
  refl d := List.suffix_refl d.typed
  trans h h' := List.IsSuffix.trans h' h
  recorded d _ _ := List.suffix_refl d.typed
  read _ _ _ line _ h := ⟨[line], h.symm⟩
  called d _ := List.suffix_refl d.typed
  probed d := List.suffix_refl d.typed

/-- What lasts lasts whatever is told and whichever calls are made. -/
instance {R : Desk σ → Desk σ → Prop} [Lasting R] :
    Watched (fun _ => True) (fun _ _ => True) R where
  refl := Lasting.refl
  trans := Lasting.trans
  recorded d events h := Lasting.recorded d events fun e he => (h e he).2
  read d prompt hidden line rest ht _ := Lasting.read d prompt hidden line rest ht
  called d c _ := Lasting.called d c

section
variable {makes : (α : Type) → Call α → Prop} {R : Desk σ → Desk σ → Prop}
  [watched : Watched (fun _ => True) makes R]

include watched

namespace Console

theorem Keeps.pure (a : α) : Keeps R (pure a) := Watched.pure a

theorem Keeps.bind {act : Console σ α} {next : α → Console σ β} (h : Keeps R act)
    (hn : ∀ a, Keeps R (next a)) : Keeps R (act >>= next) := Watched.bind h hn

theorem Keeps.session : Keeps R session := Watched.session

theorem Keeps.get : Keeps R get := Watched.get

theorem Keeps.tell (lines : List Line) : Keeps R (tell lines) := Watched.tell fun _ _ => trivial

theorem Keeps.readLine (prompt : String) (hidden : Bool) : Keeps R (readLine prompt hidden) :=
  Watched.readLine fun _ => trivial

end Console

namespace Attempt

theorem Keeps.pure (a : α) : Keeps R (pure a) := Watched.done a

theorem Keeps.bind {act : Attempt σ α} {next : α → Attempt σ β} (h : Keeps R act)
    (hn : ∀ a, Keeps R (next a)) : Keeps R (act >>= next) := Watched.andThen h hn

omit watched in
theorem Keeps.surely {act : Console σ α} (h : Console.Keeps R act) : Keeps R (surely act) :=
  Watched.surely h

theorem Keeps.tell (lines : List Line) : Keeps R (tell lines) := Watched.say fun _ _ => trivial

theorem Keeps.ask (prompt : String) (hidden : Bool) : Keeps R (ask prompt hidden) :=
  Watched.ask fun _ => trivial

theorem Keeps.during (task : String) {act : Attempt σ α} (h : Keeps R act) :
    Keeps R (during task act) := Watched.during task h

end Attempt

namespace Console

theorem Keeps.attempt (task : String) {act : Attempt σ Unit} (h : act.Keeps R) :
    Keeps R (attempt task act) := Watched.attempt task h fun _ => trivial

end Console
end

variable {R : Desk σ → Desk σ → Prop} [Lasting R]

open Console (Keeps)

namespace Account

theorem requestCode_keeps : requestCode.Keeps R := requestCode_plain.keeps

theorem requestRegistration_keeps : requestRegistration.Keeps R := requestRegistration_plain.keeps

theorem requestGrant_keeps : requestGrant.Keeps R := requestGrant_plain.keeps

theorem isOnline_keeps : Keeps R isOnline := ⟨fun d => Lasting.probed d⟩

theorem status_keeps : Keeps R status :=
  .bind .session fun _ => .bind isOnline_keeps fun _ => .bind .get fun _ => .tell _

section
variable [Host σ] {tells : Event → Prop} {makes : (α : Type) → Call α → Prop}
  {R : Desk σ → Desk σ → Prop} [watched : Watched tells makes R]

include watched

theorem askSecret_lasts (ha : ∀ prompt hidden answer, tells (.asked prompt hidden answer)) :
    askSecret.Keeps R := by
  refine Watched.andThen Watched.desk fun d => ?_
  split
  · exact Watched.andThen (Watched.ask (ha _ _)) fun _ => Watched.done _
  · refine Watched.andThen (Watched.ask (ha _ _)) fun path => ?_
    refine Watched.andThen Watched.desk fun d => ?_
    split
    · exact Watched.done _
    · exact Watched.throw _

/-- What lasts through a look at the storage lasts through the search for a secret. -/
theorem findSecret_lasts {userId : String}
    (hlook : Console.Keeps R (Console.changeVault (Vault.storedSecret userId)))
    (ha : ∀ prompt hidden answer, tells (.asked prompt hidden answer))
    (hi : ∀ text, tells (.printed (.info text))) (hw : ∀ text, tells (.printed (.warning text))) :
    (findSecret userId).Keeps R := by
  refine Watched.andThen (Watched.surely ?_) fun found => ?_
  · refine Watched.bind hlook fun found => Watched.bind (Watched.tell ?_) fun _ => Watched.pure _
    intro l hl
    rw [List.mem_singleton.mp hl]
    cases found with
    | some secret => exact hi _
    | none => exact hw _
  · cases found with
    | some secret => exact Watched.done secret
    | none => exact askSecret_lasts ha

end

theorem askSecret_keeps [Host σ] : askSecret.Keeps R := askSecret_lasts fun _ _ _ => trivial

end Account

theorem Console.execute_keeps [Host σ] {c : Command} (h : c.reachesVault = false) :
    Keeps R (execute c) := by
  by_cases hs : c = .status
  · rw [hs]
    exact .bind Account.status_keeps fun _ => .pure _
  · exact (execute_plain h hs).keeps

theorem Console.perform_authenticated (act : Console σ Unit) {d : Desk σ}
    (h : d.vault.session.isAuthenticated = true) :
    d.perform (authenticated act) = d.perform act := by
  rw [authenticated, Desk.perform_bind]
  change d.perform (if d.vault.session.isAuthenticated then act else _) = _
  rw [if_pos h]

theorem Console.authenticated_guest {d : Desk σ} (h : d.vault.session.token = none)
    (act : Console σ Unit) : d.perform (authenticated act) =
      ((), { d with events := d.events ++ [.printed (.error "Please login first")] }) := by
  have hs : (d.perform Console.session).1.isAuthenticated = false := by
    change d.vault.session.token.isSome = false
    rw [h]
    rfl
  rw [authenticated, Desk.perform_bind, hs]
  rfl

/-- A lasting relation that is kept as well when the vault is looked into, filled or emptied. -/
class Enduring [Storage σ] (R : Desk σ → Desk σ → Prop) : Prop extends Lasting R where
  sought : ∀ d userId, R d { d with vault := (d.vault.storedSecret userId).2 }
  saved : ∀ d userId token secret, R d { d with vault := d.vault.save userId token secret }
  forgotten : ∀ d, R d { d with vault := d.vault.clear }

namespace Account
variable [Host σ] {R : Desk σ → Desk σ → Prop} [Enduring R]

theorem save_endures (userId token : String) (secret : Secret) :
    (save (σ := σ) userId token secret).Keeps R :=
  .surely ⟨fun d => Enduring.saved d userId token secret⟩

theorem register_endures : Keeps R (register (σ := σ)) :=
  .attempt _ (.bind requestRegistration_keeps fun _ => .bind (save_endures ..) fun _ => .tell _)

theorem findSecret_endures (userId : String) : (findSecret (σ := σ) userId).Keeps R :=
  findSecret_lasts ⟨fun d => Enduring.sought d userId⟩ (fun _ _ _ => trivial) (fun _ => trivial)
    (fun _ => trivial)

theorem login_endures : Keeps R (login (σ := σ)) :=
  .attempt _ (.bind requestGrant_keeps fun _ => .bind (findSecret_endures _) fun _ =>
    .bind (save_endures ..) fun _ => .tell _)

theorem logout_endures : Keeps R (logout (σ := σ)) :=
  .bind ⟨fun d => Enduring.forgotten d⟩ fun _ => .tell _

end Account

/-- What endures lasts through every command. -/
theorem Console.execute_endures [Host σ] {R : Desk σ → Desk σ → Prop} [Enduring R]
    (c : Command) : Keeps R (execute (σ := σ) c) := by
  cases hc : c.reachesVault with
  | false => exact execute_keeps hc
  | true =>
    cases c with
    | register => exact .bind Account.register_endures fun _ => .pure _
    | login => exact .bind Account.login_endures fun _ => .pure _
    | logout => exact .bind Account.logout_endures fun _ => .pure _
    | _ => cases hc

instance [Storage σ] : Enduring (@Desk.TypedOn σ) where
  sought d _ := List.suffix_refl d.typed
  saved d _ _ _ := List.suffix_refl d.typed
  forgotten d := List.suffix_refl d.typed

/-- No command puts lines back. -/
theorem Console.execute_typedOn [Host σ] (c : Command) :
    Keeps Desk.TypedOn (execute (σ := σ) c) := execute_endures c

end SignedConsole
