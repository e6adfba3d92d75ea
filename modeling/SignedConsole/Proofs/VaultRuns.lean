import SignedConsole.Proofs.StorageCell

namespace SignedConsole

/-- An absent part of a session is never given as an empty one. -/
structure Session.Whole (s : Session) : Prop where
  userId : s.userId ≠ some ""
  token : s.token ≠ some ""
  secret : ∀ secret, s.secret = some secret → secret.text ≠ ""

theorem Session.nonEmpty_ne (s : String) : nonEmpty s ≠ some "" := by
  unfold nonEmpty
  split
  · nofun
  · rename_i hs
    rintro ⟨⟩
    exact hs rfl

theorem Session.Whole.of (userId token : String) (secret : Option Secret) :
    (Session.of userId token secret).Whole where
  userId := nonEmpty_ne userId
  token := nonEmpty_ne token
  secret kept hk := by
    have hkept := (Option.filter_eq_some_iff.mp hk).2
    intro hempty
    rw [Secret.isEmpty, hempty] at hkept
    cases hkept

theorem Session.Whole.anonymous : Session.anonymous.Whole := ⟨nofun, nofun, nofun⟩

namespace Vault

/-- What is asked of a vault. -/
inductive Use where
  | save (userId token : String) (secret : Secret)
  | load
  | clear
  | reset
  | storedSecret (userId : String)

/-- What befalls a vault: a use of it, or others who leave the storage as they like. -/
inductive Incident (σ : Type) where
  | used (use : Use)
  | others (storage : σ)

variable [Storage σ]

def meet (v : Vault σ) : Incident σ → Vault σ
  | .used (.save userId token secret) => v.save userId token secret
  | .used .load => v.load.2
  | .used .clear => v.clear
  | .used .reset => v.reset
  | .used (.storedSecret userId) => (v.storedSecret userId).2
  | .others storage => { v with storage }

/-- A record is read where the storage answers with a text of one. -/
theorem readRecord_eq_some_iff {v : Vault σ} {r : Record} : v.readRecord.1 = some r ↔
    ∃ text, (Storage.get credentialsKey v.storage).1 = .ok (some text) ∧
      Record.read text v.scheme = .ok r := by
  rw [readRecord_answer]
  rcases (Storage.get credentialsKey v.storage).1 with e | _ | text
  · simp [Except.toOption, Record.ofStored?]
  · simp [Except.toOption, Record.ofStored?]
  · simp only [Except.toOption, Option.join_some, Record.ofStored?, Option.bind_some,
      Except.ok.injEq, Option.some.injEq, exists_eq_left']
    cases Record.read text v.scheme <;> simp

/-- Loading says whether a record is read, and makes it the session. -/
theorem load_read (v : Vault σ) : v.load.1 = v.readRecord.1.isSome ∧
    v.load.2.session = (v.readRecord.1.map fun r =>
      Session.of r.userId r.token r.secret).getD v.session := by
  unfold load
  rcases h : v.readRecord with ⟨_ | r, v'⟩
  · have hsame : v'.session = v.session := congrArg (fun x => x.2.session) h.symm
    exact ⟨rfl, hsame⟩
  · exact ⟨rfl, rfl⟩

variable [Cell σ]

/-- The text that an incident has put into the storage, or that it has taken it away, if it has done
either. -/
def put? (v : Vault σ) : Incident σ → Option (Option String)
  | .used (.save userId token secret) =>
    let text := (⟨userId, token, some secret⟩ : Record).print v.scheme
    if (Storage.set credentialsKey text v.storage).1.isOk then some (some text) else none
  | .used .clear =>
    if (Storage.remove credentialsKey v.storage).1.isOk then some none else none
  | .used _ => none
  | .others storage => some (Cell.content storage)

/-- All that has been put there, in order. -/
def puts (v : Vault σ) : List (Incident σ) → List (Option String)
  | [] => []
  | i :: is => (v.put? i).toList ++ (v.meet i).puts is

theorem meet_scheme (v : Vault σ) (i : Incident σ) : (v.meet i).scheme = v.scheme := by
  cases i with
  | others storage => rfl
  | used use =>
    cases use with
    | load =>
      obtain ⟨s', _, _, hl | ⟨r, _, hl⟩⟩ := load_kept (v := v) trivial <;> rw [meet, hl]
    | storedSecret userId =>
      obtain ⟨s', _, _, hl, _⟩ := storedSecret_kept (v := v) trivial userId
      rw [meet, hl]
    | save userId token secret => rfl
    | clear => rfl
    | reset => rfl

theorem meet_content (v : Vault σ) (i : Incident σ) :
    Cell.content (v.meet i).storage = (v.put? i).getD (Cell.content v.storage) := by
  cases i with
  | others storage => rfl
  | used use =>
    cases use with
    | save userId token secret =>
      rw [put?]
      refine (Cell.written _ v.storage).trans ?_
      split <;> rfl
    | clear =>
      rw [put?]
      refine (Cell.removed v.storage).trans ?_
      split <;> rfl
    | load =>
      obtain ⟨s', _, hkept, hl | ⟨r, _, hl⟩⟩ := load_kept (v := v) trivial <;>
      · rw [meet, hl]
        exact hkept
    | storedSecret userId =>
      obtain ⟨s', _, hkept, hl, _⟩ := storedSecret_kept (v := v) trivial userId
      rw [meet, hl]
      exact hkept
    | reset => rfl

theorem meet_whole {v : Vault σ} (h : v.session.Whole) (i : Incident σ) :
    (v.meet i).session.Whole := by
  cases i with
  | others storage => exact h
  | used use =>
    cases use with
    | save userId token secret => exact .of userId token (some secret)
    | load =>
      obtain ⟨s', _, _, hl | ⟨r, _, hl⟩⟩ := load_kept (v := v) trivial
      · rw [meet, hl]
        exact h
      · rw [meet, hl]
        exact .of r.userId r.token r.secret
    | clear => exact .anonymous
    | reset => exact .anonymous
    | storedSecret userId =>
      obtain ⟨s', _, _, hl, _⟩ := storedSecret_kept (v := v) trivial userId
      rw [meet, hl]
      exact h

theorem meets_scheme (v : Vault σ) (incidents : List (Incident σ)) :
    (incidents.foldl meet v).scheme = v.scheme := by
  induction incidents generalizing v with
  | nil => rfl
  | cons i is ih => rw [List.foldl_cons, ih, meet_scheme]

/-- What the storage holds is what was put there last. -/
theorem meets_content (v : Vault σ) (incidents : List (Incident σ)) :
    Cell.content (incidents.foldl meet v).storage =
      (v.puts incidents).getLast?.getD (Cell.content v.storage) := by
  induction incidents generalizing v with
  | nil => rfl
  | cons i is ih =>
    rw [List.foldl_cons, ih, meet_content, puts, List.getLast?_append]
    cases (v.meet i).puts is |>.getLast? <;> cases v.put? i <;> rfl

theorem meets_whole {v : Vault σ} (h : v.session.Whole) (incidents : List (Incident σ)) :
    (incidents.foldl meet v).session.Whole := by
  induction incidents generalizing v with
  | nil => exact h
  | cons i is ih => exact ih (meet_whole h i)

/-- Whatever the storage refuses and whatever others write there: saving makes the given credentials
the session, clearing and resetting leave none, and loading takes over the record of a text that the
storage gives out, if it gives out one and that is a record's. Looking for a secret changes nothing,
resetting changes the session alone, and in the end the storage holds what was put there last. -/
theorem refusals_are_borne (s : σ) (scheme : Scheme) (incidents : List (Incident σ)) :
    let v := incidents.foldl meet (closed s scheme)
    let answer := (Storage.get credentialsKey v.storage).1
    v.scheme = scheme ∧
    (∀ userId token secret, (v.save userId token secret).session = .of userId token (some secret)) ∧
    v.clear.session = .anonymous ∧
    v.reset.session = .anonymous ∧ v.reset.storage = v.storage ∧
    (v.load.1 = true ↔
      ∃ text r, answer = .ok (some text) ∧ Record.read text scheme = .ok r) ∧
    (∀ text r, answer = .ok (some text) → Record.read text scheme = .ok r →
      v.load.2.session = .of r.userId r.token r.secret) ∧
    (v.load.1 = false → v.load.2.session = v.session) ∧
    (∀ userId, (v.storedSecret userId).2.session = v.session ∧
      Cell.content (v.storedSecret userId).2.storage = Cell.content v.storage) ∧
    Cell.content v.storage =
      ((closed s scheme).puts incidents).getLast?.getD (Cell.content s) ∧
    v.session.Whole := by
  intro v answer
  have hscheme : v.scheme = scheme := meets_scheme (closed s scheme) incidents
  obtain ⟨htold, hsession⟩ := v.load_read
  have hread : ∀ r, v.readRecord.1 = some r ↔
      ∃ text, answer = .ok (some text) ∧ Record.read text scheme = .ok r := by
    intro r
    rw [readRecord_eq_some_iff, hscheme]
  refine ⟨hscheme, fun _ _ _ => rfl, rfl, rfl, rfl, ?_, ?_, ?_, fun userId => ?_,
    meets_content (closed s scheme) incidents, meets_whole .anonymous incidents⟩
  · rw [htold, Option.isSome_iff_exists]
    simp only [hread]
    exact exists_comm
  · intro text r ha hr
    rw [hsession, (hread r).mpr ⟨text, ha, hr⟩]
    rfl
  · intro hnone
    rw [htold, Option.isSome_eq_false_iff, Option.isNone_iff_eq_none] at hnone
    rw [hsession, hnone]
    rfl
  · obtain ⟨s', _, hkept, hl, _⟩ := storedSecret_kept (v := v) trivial userId
    rw [hl]
    exact ⟨rfl, hkept⟩

/-- Storage that has become full keeps the text that another user has put there, and who saves is
logged in all the same. -/
theorem full_storage_keeps_text :
    let full : Refusing Memory := ⟨Memory.empty.insert credentialsKey "[]", false, true, false⟩
    let v := [.others full, .used (.save "alice123456" "jwt" ⟨"sk_test123"⟩)].foldl meet
      (closed (⟨.empty, false, false, false⟩ : Refusing Memory) .hmac)
    v.session = .of "alice123456" "jwt" (some ⟨"sk_test123"⟩) ∧
    Cell.content v.storage = some "[]" ∧ v.load.1 = false ∧ v.load.2.session = v.session := by
  intro full v
  obtain ⟨_, _, _, _, _, hload, _, hkept, _, hstored, _⟩ := refusals_are_borne
    (⟨.empty, false, false, false⟩ : Refusing Memory) .hmac
    [.others full, .used (.save "alice123456" "jwt" ⟨"sk_test123"⟩)]
  have hfalse : v.load.1 = false := by
    rw [Bool.eq_false_iff]
    intro htrue
    obtain ⟨text, r, ha, hr⟩ := hload.mp htrue
    cases ha
    cases hr
  exact ⟨rfl, hstored, hfalse, hkept hfalse⟩

end Vault
end SignedConsole
