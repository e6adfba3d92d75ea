import SignedConsole.Proofs.SessionMirror
import SignedConsole.Proofs.VaultRuns

namespace SignedConsole

/-- A record that was read has no empty secret. -/
theorem Record.secret_of_read {text : String} {scheme : Scheme} {r : Record}
    (h : Record.read text scheme = .ok r) {secret : Secret} (hs : r.secret = some secret) :
    secret.text ≠ "" := by
  have hkept : (r.readUnder scheme scheme).secret = some secret := by
    rw [readUnder_of_read h, hs]
  rw [readUnder, if_pos rfl] at hkept
  have hfull := (Option.filter_eq_some_iff.mp hkept).2
  simpa [Secret.isEmpty] using hfull

namespace Vault

variable [Storage σ]

/-- Whether the text that the storage gives out is that user's record, with that secret in it. -/
def Gives (v : Vault σ) (userId : String) (secret : Secret) : Prop :=
  ∃ text r, (Storage.get credentialsKey v.storage).1 = .ok (some text) ∧
    Record.read text v.scheme = .ok r ∧ r.userId = userId ∧ r.secret = some secret ∧
    secret.text ≠ ""

theorem storedSecret_eq_some_iff {v : Vault σ} {userId : String} {secret : Secret} :
    (v.storedSecret userId).1 = some secret ↔ v.Gives userId secret := by
  have hsecret : (v.storedSecret userId).1 = some secret ↔
      ∃ r, v.readRecord.1 = some r ∧ r.userId = userId ∧ r.secret = some secret := by
    simp [storedSecret_answer, Option.bind_eq_some_iff, Option.filter_eq_some_iff, and_assoc]
  rw [hsecret]
  constructor
  · rintro ⟨r, hr, huser, hs⟩
    obtain ⟨text, hg, hread⟩ := readRecord_eq_some_iff.mp hr
    exact ⟨text, r, hg, hread, huser, hs, Record.secret_of_read hread hs⟩
  · rintro ⟨text, r, hg, hread, huser, hs, -⟩
    exact ⟨r, readRecord_eq_some_iff.mpr ⟨text, hg, hread⟩, huser, hs⟩

/-- Whether a stored text, if there is one and it is a record, is one of a user with a name. -/
def Named (scheme : Scheme) (text : Option String) : Prop :=
  ∀ r, Record.ofStored? scheme text = some r → r.userId ≠ ""

variable [Keeper σ]

/-- Whether a user with a name is saved, or others leave no record without one. -/
def Incident.Named (scheme : Scheme) : Incident σ → Prop
  | .used (.save userId _ _) => userId ≠ ""
  | .used _ => True
  | .others storage => Keeper.Sound storage ∧ Vault.Named scheme (Keeper.content storage)

/-- A vault with no record without a name. -/
structure Attributed (scheme : Scheme) (v : Vault σ) : Prop where
  sound : Keeper.Sound v.storage
  kept : v.scheme = scheme
  named : Named scheme (Keeper.content v.storage)

theorem named_print (scheme : Scheme) {r : Record} (h : r.userId ≠ "") :
    Named scheme (some (r.print scheme)) := by
  intro found hfound
  rw [Record.ofStored_print] at hfound
  cases hfound
  exact h

variable {scheme : Scheme} {v : Vault σ}

/-- What leaves the storage sound and its text as it is. -/
theorem Attributed.same (h : Attributed scheme v) {s : σ} (hs : Keeper.Sound s)
    (hkept : Keeper.content s = Keeper.content v.storage) (session : Session) :
    Attributed scheme { v with storage := s, session } := ⟨hs, h.kept, hkept.symm ▸ h.named⟩

theorem Attributed.load (h : Attributed scheme v) : Attributed scheme v.load.2 := by
  obtain ⟨s', hs', hkept, hl | ⟨r, -, hl⟩⟩ := load_kept h.sound
  · exact hl ▸ h.same hs' hkept v.session
  · exact hl ▸ h.same hs' hkept _

theorem Attributed.save (h : Attributed scheme v) {userId : String} (hname : userId ≠ "")
    (token : String) (secret : Secret) : Attributed scheme (v.save userId token secret) := by
  obtain ⟨hsound, hc | hc⟩ := save_kept h.sound userId token secret
  · refine ⟨hsound, h.kept, ?_⟩
    rw [hc, h.kept]
    exact named_print scheme hname
  · exact ⟨hsound, h.kept, hc ▸ h.named⟩

theorem Attributed.clear (h : Attributed scheme v) : Attributed scheme v.clear := by
  obtain ⟨hsound, hc | hc⟩ := clear_kept h.sound
  · refine ⟨hsound, h.kept, ?_⟩
    rw [hc]
    nofun
  · exact ⟨hsound, h.kept, hc ▸ h.named⟩

theorem Attributed.meet (h : Attributed scheme v) {i : Incident σ} (hi : i.Named scheme) :
    Attributed scheme (v.meet i) := by
  cases i with
  | others storage => exact ⟨hi.1, h.kept, hi.2⟩
  | used use =>
    cases use with
    | save userId token secret => exact h.save hi token secret
    | load => exact h.load
    | clear => exact h.clear
    | reset => exact ⟨h.sound, h.kept, h.named⟩
    | storedSecret userId =>
      obtain ⟨s', hs', hkept, hl, -⟩ := storedSecret_kept h.sound userId
      rw [Vault.meet, hl]
      exact h.same hs' hkept v.session

theorem Attributed.meets (h : Attributed scheme v) {incidents : List (Incident σ)}
    (hi : ∀ i ∈ incidents, i.Named scheme) : Attributed scheme (incidents.foldl Vault.meet v) := by
  induction incidents generalizing v with
  | nil => exact h
  | cons i is ih =>
    exact ih (h.meet (hi i List.mem_cons_self)) fun j hj => hi j (List.mem_cons_of_mem i hj)

theorem Attributed.found_named (h : Attributed scheme v) {userId : String} {secret : Secret}
    (hs : v.Gives userId secret) : userId ≠ "" := by
  obtain ⟨text, r, hg, hread, rfl, -⟩ := hs
  obtain ⟨-, -, hfound⟩ := Keeper.got h.sound
  refine h.named r ?_
  rw [← hfound (some text) hg, Record.ofStored?, Option.bind_some, ← h.kept, hread]
  rfl

/-- What is read is the record in the text that is kept, if the storage gives it out. -/
theorem readRecord_given (hs : Keeper.Sound v.storage)
    (hget : (Storage.get credentialsKey v.storage).1.isOk = true) :
    v.readRecord.1 = Record.ofStored? v.scheme (Keeper.content v.storage) := by
  obtain ⟨-, -, hfound⟩ := Keeper.got hs
  rw [readRecord_answer]
  cases hg : (Storage.get credentialsKey v.storage).1 with
  | error e =>
    rw [hg] at hget
    cases hget
  | ok found =>
    rw [hfound found hg]
    rfl

/-- A record that has just been stored is found for its user alone, unless its secret is empty. -/
theorem storedSecret_saved (hs : Keeper.Sound v.storage) {userId token : String} {secret : Secret}
    (hset : (Storage.set credentialsKey ((⟨userId, token, some secret⟩ : Record).print v.scheme)
      v.storage).1.isOk = true)
    (hget : (Storage.get credentialsKey (v.save userId token secret).storage).1.isOk = true)
    (other : String) : ((v.save userId token secret).storedSecret other).1 =
      if other = userId ∧ secret.text ≠ "" then some secret else none := by
  obtain ⟨hsound, hwritten⟩ := Keeper.written hs
    ((⟨userId, token, some secret⟩ : Record).print v.scheme)
  rw [if_pos hset] at hwritten
  have hread : (v.save userId token secret).readRecord.1 =
      some ⟨userId, token, (some secret).filter fun s => !s.isEmpty⟩ := by
    have hsame : (v.save userId token secret).scheme = v.scheme := rfl
    have hcontent : Keeper.content (v.save userId token secret).storage =
        some ((⟨userId, token, some secret⟩ : Record).print v.scheme) := hwritten
    rw [readRecord_given hsound hget, hcontent, hsame, Record.ofStored_print, Record.readUnder,
      if_pos rfl]
  rw [storedSecret_answer, hread]
  by_cases huser : userId = other
  · by_cases hempty : secret.text = ""
    · simp [huser, hempty, Option.filter, Secret.isEmpty]
    · simp [huser, hempty, Option.filter, Secret.isEmpty]
  · simp [huser, Ne.symm huser, Option.filter]

/-- Whatever has been done with a vault, a secret is found where the stored text is the record of
exactly that user and holds it. Where nobody without a name has been saved and others have left no
such record, that user has a name; a record that is saved under the empty name is found under it. -/
theorem secrets_answer_to_owners (s : σ) (scheme : Scheme) (incidents : List (Incident σ)) :
    let v := incidents.foldl Vault.meet (closed s scheme)
    (∀ userId secret, (v.storedSecret userId).1 = some secret ↔ v.Gives userId secret) ∧
    (Keeper.Sound s → Named scheme (Keeper.content s) → (∀ i ∈ incidents, i.Named scheme) →
      ∀ userId secret, (v.storedSecret userId).1 = some secret ↔
        userId ≠ "" ∧ v.Gives userId secret) ∧
    (Keeper.Sound v.storage → ∀ userId token secret,
      (Storage.set credentialsKey ((⟨userId, token, some secret⟩ : Record).print v.scheme)
        v.storage).1.isOk = true →
      (Storage.get credentialsKey (v.save userId token secret).storage).1.isOk = true →
      ∀ other, ((v.save userId token secret).storedSecret other).1 =
        if other = userId ∧ secret.text ≠ "" then some secret else none) := by
  intro v
  refine ⟨fun userId secret => storedSecret_eq_some_iff, ?_, ?_⟩
  · intro hs hnamed hincidents userId secret
    have hstart : Attributed scheme (closed s scheme) := ⟨hs, rfl, hnamed⟩
    have hv : Attributed scheme v := hstart.meets hincidents
    rw [storedSecret_eq_some_iff]
    exact ⟨fun hgives => ⟨hv.found_named hgives, hgives⟩, And.right⟩
  · intro hs userId token secret hset hget
    exact storedSecret_saved hs hset hget

/-- A user saved in the place of another, whose secret is of another scheme, is the only one who finds
a secret. -/
theorem saved_secret_answers :
    let bobs := Memory.empty.insert credentialsKey
      "\x7b\"privateKey\":\"MII\",\"token\":\"t\",\"userId\":\"bob\"\x7d"
    let before := [.others bobs].foldl Vault.meet (closed Memory.empty .hmac)
    let after := before.save "alice123456" "jwt" ⟨"sk_test123"⟩
    Named .hmac (Keeper.content bobs) ∧
    (before.storedSecret "bob").1 = none ∧ (before.storedSecret "").1 = none ∧
    (after.storedSecret "alice123456").1 = some ⟨"sk_test123"⟩ ∧
    (after.storedSecret "ALICE123456").1 = none ∧ (after.storedSecret "").1 = none := by
  intro bobs before after
  have hread : (Record.ofStored? .hmac (Keeper.content bobs)).map
      (fun r => (r.userId, r.secret.map Secret.text)) = some ("bob", none) := by decide +kernel
  obtain ⟨bob, hbob, hfields⟩ := Option.map_eq_some_iff.mp hread
  obtain ⟨hname, hsecret⟩ := Prod.mk.inj hfields
  have hnamed : Named .hmac (Keeper.content bobs) := by
    intro r hr
    cases hbob.symm.trans hr
    rw [hname]
    decide
  have hempty : Named .hmac (Keeper.content Memory.empty) := by
    intro r hr
    cases hr
  obtain ⟨hgives, hnames, hsaved⟩ := secrets_answer_to_owners Memory.empty .hmac [.others bobs]
  have hothers : ∀ i ∈ [Incident.others bobs], i.Named .hmac := by
    simpa [Incident.Named] using ⟨trivial, hnamed⟩
  have hbefore : (before.storedSecret "bob").1 = none := by
    refine Option.eq_none_iff_forall_ne_some.mpr fun secret hfound => ?_
    obtain ⟨text, r, hg, hr, -, hs, -⟩ := (hgives "bob" secret).mp hfound
    have htext : Keeper.content bobs = some text := Except.ok.inj hg
    have hr' : (Record.read text .hmac).toOption = some r := congrArg Except.toOption hr
    rw [htext, Record.ofStored?, Option.bind_some, hr'] at hbob
    cases hbob
    rw [hs] at hsecret
    cases hsecret
  have hnobody : (before.storedSecret "").1 = none := by
    refine Option.eq_none_iff_forall_ne_some.mpr fun secret hfound => ?_
    exact ((hnames trivial hempty hothers "" secret).mp hfound).1 rfl
  have hafter := hsaved trivial "alice123456" "jwt" ⟨"sk_test123"⟩ rfl rfl
  exact ⟨hnamed, hbefore, hnobody, (hafter _).trans (if_pos (by decide)),
    (hafter _).trans (if_neg (by decide)), (hafter _).trans (if_neg (by decide))⟩

/-- A secret saved without a user is found by whoever asks without a user. -/
theorem secret_without_user_answers :
    let v := [.used (.save "" "jwt" ⟨"sk_test123"⟩)].foldl Vault.meet (closed Memory.empty .hmac)
    (v.storedSecret "").1 = some ⟨"sk_test123"⟩ ∧
    ¬ ((v.storedSecret "").1 = some ⟨"sk_test123"⟩ ↔
      "" ≠ "" ∧ v.Gives "" ⟨"sk_test123"⟩) := by
  intro v
  have hfound : (v.storedSecret "").1 = some ⟨"sk_test123"⟩ :=
    (storedSecret_saved (v := closed Memory.empty .hmac) trivial rfl rfl "").trans
      (if_pos (by decide))
  exact ⟨hfound, fun hclaimed => (hclaimed.mp hfound).1 rfl⟩

end Vault
end SignedConsole
