import SignedConsole.Proofs.ConsoleProcess
import SignedConsole.Proofs.StorageCell

namespace SignedConsole

variable {ι : Type}

/-- Whether a secret was issued to a user, or entered after a login had been granted to that user.
Deeds stand with the process that they are of. -/
def Credited (deeds : List (ι × Deed)) (userId : String) (secret : Secret) : Prop :=
  (∃ i r, (i, .registered r) ∈ deeds ∧ r.userId = userId ∧ r.secretKey = secret.text) ∨
    ∃ i r earlier later, deeds = earlier ++ (i, .entered r secret) :: later ∧
      (i, .granted r) ∈ earlier ∧ r.userId = userId

theorem Credited.more {deeds : List (ι × Deed)} {userId : String} {secret : Secret}
    (h : Credited deeds userId secret) (later : List (ι × Deed)) :
    Credited (deeds ++ later) userId secret := by
  rcases h with ⟨i, r, hm, h⟩ | ⟨i, r, before, after, rfl, h⟩
  · exact Or.inl ⟨i, r, List.mem_append_left _ hm, h⟩
  · exact Or.inr ⟨i, r, before, after ++ later, by simp, h⟩

/-- Whether the secret of a session, if it has one, is its user's. -/
def Session.Credited (deeds : List (ι × Deed)) (s : Session) : Prop :=
  ∀ secret, s.secret = some secret → secret.text ≠ "" →
    SignedConsole.Credited deeds (s.userId.getD "") secret

/-- Whether the secret in a stored text is that of the user there, whichever scheme reads it. -/
def StoredCredited (deeds : List (ι × Deed)) (text : Option String) : Prop :=
  ∀ scheme r secret, Record.ofStored? scheme text = some r → r.secret = some secret →
    secret.text ≠ "" → Credited deeds r.userId secret

/-- Whether what is to be kept next is credited, and what is looked for has been granted. -/
def Point.Credited (i : ι) (deeds : List (ι × Deed)) : Point → Prop
  | .search r | .entry r => (i, .granted r) ∈ deeds
  | .keep userId _ secret _ => secret.text ≠ "" → SignedConsole.Credited deeds userId secret
  | .start | .prompt | .forget | .stopped => True

theorem Session.Credited.more {deeds : List (ι × Deed)} {s : Session} (h : s.Credited deeds)
    (later : List (ι × Deed)) : s.Credited (deeds ++ later) :=
  fun secret hs hne => (h secret hs hne).more later

theorem StoredCredited.more {deeds : List (ι × Deed)} {text : Option String}
    (h : StoredCredited deeds text) (later : List (ι × Deed)) :
    StoredCredited (deeds ++ later) text :=
  fun scheme r secret hr hs hne => (h scheme r secret hr hs hne).more later

theorem Point.Credited.more {i : ι} {deeds : List (ι × Deed)} {point : Point}
    (h : point.Credited i deeds) (later : List (ι × Deed)) : point.Credited i (deeds ++ later) := by
  cases point with
  | search r => exact List.mem_append_left _ h
  | entry r => exact List.mem_append_left _ h
  | keep userId token secret lines => exact fun hne => (h hne).more later
  | _ => trivial

theorem Session.Credited.of_record {deeds : List (ι × Deed)} {r : Record}
    (h : ∀ secret, r.secret = some secret → secret.text ≠ "" →
      SignedConsole.Credited deeds r.userId secret) :
    (Session.of r.userId r.token r.secret).Credited deeds := by
  intro secret hs hne
  have huser : (Session.nonEmpty r.userId).getD "" = r.userId := by
    unfold Session.nonEmpty
    split
    · rename_i he
      exact (String.isEmpty_iff.mp he).symm
    · rfl
  change SignedConsole.Credited deeds ((Session.nonEmpty r.userId).getD "") secret
  rw [huser]
  exact h secret (Option.filter_eq_some_iff.mp hs).1 hne

theorem StoredCredited.of_print {deeds : List (ι × Deed)} {userId : String} {secret : Secret}
    (h : secret.text ≠ "" → Credited deeds userId secret) (token : String) (stored : Scheme) :
    StoredCredited deeds (some ((⟨userId, token, some secret⟩ : Record).print stored)) := by
  intro scheme r secret' hr hs hne
  rw [Record.ofStored_print] at hr
  cases hr
  change (if stored = scheme then (some secret).filter _ else none) = some secret' at hs
  split at hs
  · cases (Option.filter_eq_some_iff.mp hs).1
    exact h hne
  · cases hs

namespace Point

variable [Host σ]

/-- The only credentials that a command has to keep are those of a registration, and the only secret
that it has to look for is that of a granted login. -/
theorem ofCommand_credited (i : ι) (deeds : List (ι × Deed)) (c : Command) (d : Desk σ) :
    (d.perform (ofCommand c)).1.1.Credited i
      (deeds ++ (d.perform (ofCommand c)).1.2.map (Prod.mk i)) := by
  cases hc : c.reachesVault with
  | true =>
    cases c with
    | register =>
      rcases register_result d with h | ⟨r, _, _, h⟩
      · rw [h]
        trivial
      · rw [h]
        exact fun _ => Or.inl ⟨i, r, List.mem_append_right _ List.mem_cons_self, rfl, rfl⟩
    | login =>
      rcases login_result d with h | ⟨r, _, _, h⟩
      · rw [h]
        trivial
      · rw [h]
        exact List.mem_append_right _ List.mem_cons_self
    | logout => trivial
    | _ => cases hc
  | false =>
    rw [ofCommand_eq hc, Desk.perform_bind]
    cases (d.perform (Console.execute c)).1 <;> trivial

end Point

namespace Process

variable [Host σ] [Keeper σ]

/-- A process all whose secrets are credited, those that it can read included. -/
structure Sound (i : ι) (deeds : List (ι × Deed)) (p : Process σ) : Prop where
  storage : Keeper.Sound p.desk.vault.storage
  session : p.desk.vault.session.Credited deeds
  point : p.point.Credited i deeds
  stored : StoredCredited deeds (Keeper.content p.desk.vault.storage)

variable {i : ι} {deeds : List (ι × Deed)} {p : Process σ}

open Vault

/-- What stays sound while the vault stays as it is. -/
theorem Sound.kept (h : Sound i deeds p) {r : (Point × List Deed) × Desk σ}
    (hv : r.2.vault = p.desk.vault) (hp : r.1.1.Credited i (deeds ++ r.1.2.map (Prod.mk i))) :
    Sound i (deeds ++ r.1.2.map (Prod.mk i)) (left r) := by
  have hvault : (left r).desk.vault = p.desk.vault := hv
  refine ⟨?_, ?_, hp, ?_⟩
  · rw [hvault]
    exact h.storage
  · rw [hvault]
    exact h.session.more _
  · rw [hvault]
    exact h.stored.more _

theorem Sound.start (h : Sound i deeds p) :
    Sound i deeds (left (p.desk.perform (Point.step .start))) := by
  have hvault : (left (p.desk.perform (Point.step .start))).desk.vault = p.desk.vault.load.2 := rfl
  obtain ⟨s', hs', hkept, hload | ⟨r, hr, hload⟩⟩ := load_kept h.storage
  · refine ⟨?_, ?_, trivial, ?_⟩ <;> rw [hvault, hload]
    · exact hs'
    · exact h.session
    · exact hkept ▸ h.stored
  · refine ⟨?_, ?_, trivial, ?_⟩ <;> rw [hvault, hload]
    · exact hs'
    · exact .of_record fun secret hs hne => h.stored _ r secret hr hs hne
    · exact hkept ▸ h.stored

theorem Sound.search (h : Sound i deeds p) {r : Grant} (hp : (i, .granted r) ∈ deeds) :
    Sound i deeds (left (p.desk.perform (Point.step (.search r)))) := by
  obtain ⟨s', hs', hkept, hvault, hfound⟩ := storedSecret_kept h.storage r.userId
  have hseek : (p.desk.perform (Account.seekSecret r.userId)).1 =
      (p.desk.vault.storedSecret r.userId).1 := rfl
  have hdesk : (p.desk.perform (Account.seekSecret r.userId)).2.vault =
      (p.desk.vault.storedSecret r.userId).2 := rfl
  rw [Point.step, Desk.perform_bind, hseek]
  rw [hvault] at hdesk
  generalize (p.desk.perform (Account.seekSecret r.userId)).2 = d at hdesk ⊢
  have hstorage : Keeper.Sound d.vault.storage := by
    rw [hdesk]
    exact hs'
  have hsession : d.vault.session.Credited deeds := by
    rw [hdesk]
    exact h.session
  have hstored : StoredCredited deeds (Keeper.content d.vault.storage) := by
    rw [hdesk]
    exact hkept ▸ h.stored
  cases hs : (p.desk.vault.storedSecret r.userId).1 with
  | none => exact ⟨hstorage, hsession, hp, hstored⟩
  | some secret =>
    obtain ⟨record, hr, huser, hsecret⟩ := hfound secret hs
    exact ⟨hstorage, hsession, fun hne => huser ▸ h.stored _ record secret hr hsecret hne, hstored⟩

theorem Sound.keep (h : Sound i deeds p) {userId token : String} {secret : Secret}
    {lines : List Line} (hp : secret.text ≠ "" → Credited deeds userId secret) :
    Sound i deeds (left (p.desk.perform (Point.step (.keep userId token secret lines)))) := by
  have hvault : (left (p.desk.perform (Point.step (.keep userId token secret lines)))).desk.vault =
    p.desk.vault.save userId token secret := rfl
  obtain ⟨hs', hcontent⟩ := save_kept h.storage userId token secret
  refine ⟨?_, ?_, trivial, ?_⟩
  · rw [hvault]
    exact hs'
  · rw [hvault]
    exact Session.Credited.of_record (r := ⟨userId, token, some secret⟩)
      (by rintro _ ⟨⟩ hne; exact hp hne)
  · rw [hvault]
    rcases hcontent with hc | hc
    · rw [hc]
      exact .of_print hp token _
    · rw [hc]
      exact h.stored

theorem Sound.entry (h : Sound i deeds p) {r : Grant} (hp : (i, .granted r) ∈ deeds)
    {x : (Point × List Deed) × Desk σ} (hx : p.desk.perform (Point.step (.entry r)) = x) :
    Sound i (deeds ++ x.1.2.map (Prod.mk i)) (left x) := by
  refine h.kept ?_ ?_
  · rw [← hx]
    exact (Point.entry_keeps (R := Desk.SameVault) r).step p.desk
  · rw [← hx]
    rcases Point.entry_result p.desk r with he | ⟨secret, _, _, he⟩
    · rw [he]
      trivial
    · rw [he]
      exact fun _ => Or.inr ⟨i, r, deeds, [], rfl, hp, rfl⟩

theorem Sound.prompt (h : Sound i deeds p) {x : (Point × List Deed) × Desk σ}
    (hx : p.desk.perform (Point.step .prompt) = x) :
    Sound i (deeds ++ x.1.2.map (Prod.mk i)) (left x) := by
  refine h.kept ?_ ?_
  · rw [← hx]
    exact (Point.prompt_keeps (R := Desk.SameVault)).step p.desk
  · rw [← hx]
    rcases Point.prompt_result p.desk with he | ⟨c, typed, events, he⟩
    · rw [he]
      trivial
    · rw [he]
      exact Point.ofCommand_credited i deeds c _

theorem Sound.forget (h : Sound i deeds p) :
    Sound i deeds (left (p.desk.perform (Point.step .forget))) := by
  have hvault : (left (p.desk.perform (Point.step .forget))).desk.vault = p.desk.vault.clear := rfl
  obtain ⟨hs', hcontent⟩ := clear_kept h.storage
  refine ⟨?_, ?_, trivial, ?_⟩
  · rw [hvault]
    exact hs'
  · rw [hvault]
    rintro secret ⟨⟩
  · rw [hvault]
    rcases hcontent with hc | hc
    · rw [hc]
      rintro scheme r secret ⟨⟩
    · rw [hc]
      exact h.stored

/-- A step keeps all secrets with their users. -/
theorem Sound.step (h : Sound i deeds p) :
    Sound i (deeds ++ p.step.2.map (Prod.mk i)) p.step.1 := by
  obtain ⟨point, desk⟩ := p
  have hnone : deeds ++ ([] : List Deed).map (Prod.mk i) = deeds := List.append_nil deeds
  cases point with
  | start => exact hnone.symm ▸ h.start
  | prompt => exact h.prompt rfl
  | search r =>
    have hd : (Process.step ⟨.search r, desk⟩).2 = [] := Point.search_deeds desk r
    rw [hd, hnone]
    exact h.search h.point
  | entry r => exact h.entry h.point rfl
  | keep userId token secret lines => exact hnone.symm ▸ h.keep h.point
  | forget => exact hnone.symm ▸ h.forget
  | stopped => exact hnone.symm ▸ h

end Process
end SignedConsole
