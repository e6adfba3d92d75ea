import SignedConsole.Credential.Record
import SignedConsole.Proofs.JsonRoundTrip

namespace SignedConsole.Record

/-- What is left of a record when it is read under a scheme after it was stored under another. -/
def readUnder (r : Record) (stored read : Scheme) : Record :=
  { r with secret := if stored = read then r.secret.filter fun s => !s.isEmpty else none }

/-- The record in a stored text, if there is a text and it can be read. -/
def ofStored? (scheme : Scheme) (text : Option String) : Option Record :=
  text.bind fun t => (read t scheme).toOption

theorem members_plain (r : Record) (scheme : Scheme) : ∃ members, r.toJson scheme =
    .ofMembers members ∧ ∀ m ∈ members, m.2.Plain := by
  refine ⟨_, rfl, ?_⟩
  intro m hm
  simp only [List.mem_append, List.mem_map, List.mem_cons, List.not_mem_nil, or_false] at hm
  rcases hm with ⟨s, _, rfl⟩ | rfl | rfl <;> exact .text _

theorem kept_secret (s : Secret) :
    ((some s.text).filter fun text => !text.isEmpty).map Secret.mk =
      (some s).filter fun s => !s.isEmpty := by
  cases h : s.text.isEmpty <;> simp [Option.filter, Secret.isEmpty, h]

theorem ofJson_toJson (r : Record) (stored read : Scheme) :
    ofJson? read (r.toJson stored) = some (r.readUnder stored read) := by
  obtain ⟨members, hj, hplain⟩ := r.members_plain stored
  have hvalue : (r.toJson stored).isValue = true := hj ▸ Json.ofMembers_isValue hplain
  obtain ⟨userId, token, secret⟩ := r
  unfold toJson Json.ofMembers at hvalue ⊢
  simp only [ofJson?, hvalue, ↓reduceIte]
  cases secret <;> cases stored <;> cases read <;>
    simp [onlyText?, Json.lastMember?, Scheme.secretField, readUnder, Json.ofString, Json.text?,
      kept_secret]

/-- A stored record is read with all that the scheme lets it keep. -/
theorem read_print (r : Record) (stored read : Scheme) :
    Record.read (r.print stored) read = .ok (r.readUnder stored read) := by
  obtain ⟨members, hj, hplain⟩ := r.members_plain stored
  have hread : Json.read (r.toJson stored).print = some (r.toJson stored) := by
    rw [hj]
    exact Json.read_print (Json.ofMembers_spelled hplain)
  simp only [Record.read, Record.print, hread, Option.bind_some, ofJson_toJson]

theorem secret_ofJson {scheme : Scheme} {j : Json} {r : Record} (h : ofJson? scheme j = some r) :
    ∀ secret, r.secret = some secret → secret.isEmpty = false := by
  intro secret hs
  unfold ofJson? at h
  split at h
  · split at h
    · simp only [Option.bind_eq_bind, Option.bind_eq_some_iff] at h
      obtain ⟨userId, _, token, _, hr⟩ := h
      cases hr
      obtain ⟨text, hfound, rfl⟩ := Option.map_eq_some_iff.mp hs
      have hkept := (Option.filter_eq_some_iff.mp hfound).2
      simpa [Secret.isEmpty] using hkept
    · cases h
  · cases h

/-- Reading drops an empty secret, so a record that was read loses nothing when it is stored. -/
theorem readUnder_of_read {text : String} {scheme : Scheme} {r : Record}
    (h : Record.read text scheme = .ok r) : r.readUnder scheme scheme = r := by
  unfold Record.read at h
  cases hj : (Json.read text).bind (ofJson? scheme) with
  | none =>
    rw [hj] at h
    cases h
  | some found =>
    rw [hj] at h
    cases h
    obtain ⟨j, _, hr⟩ := Option.bind_eq_some_iff.mp hj
    have hsecret := secret_ofJson hr
    obtain ⟨userId, token, secret⟩ := r
    cases secret with
    | none => simp [readUnder]
    | some secret => simp [readUnder, hsecret secret rfl]

theorem ofStored_print (r : Record) (stored read : Scheme) :
    ofStored? read (some (r.print stored)) = some (r.readUnder stored read) := by
  rw [ofStored?, Option.bind_some, read_print]
  rfl

/-- A record is found again as it was stored, but for an empty secret and for one of another scheme;
and what a text is read as is found again when it is stored in its place. -/
theorem records_survive_storage :
    (∀ (r : Record) (stored reading : Scheme), Record.read (r.print stored) reading =
      .ok ⟨r.userId, r.token,
        if stored = reading then r.secret.filter fun s => !s.isEmpty else none⟩) ∧
    ∀ (text : String) (scheme : Scheme) (r : Record), Record.read text scheme = .ok r →
      Record.read (r.print scheme) scheme = .ok r := by
  refine ⟨fun r stored reading => r.read_print stored reading, ?_⟩
  intro text scheme r h
  rw [read_print, readUnder_of_read h]

/-- Escapes, members of other names and a key that is given twice are gone after one round, and
nothing else is. -/
theorem spelled_record_survives :
    let text := "\x7b \"note\":[1e3,null], \"token\":\"a\\tb\", \"privateKey\":\"old\",\n" ++
      "\"userId\":\"\\ud83d\\ude00\", \"private\\u004bey\":\"-----BEGIN\\nMII\\u0000\" \x7d"
    ∃ r : Record, Record.read text .rsa = .ok r ∧
      (r.userId, r.token, r.secret.map Secret.text) = ("😀", "a\tb", some "-----BEGIN\nMII\x00") ∧
      Record.read (r.print .rsa) .rsa = .ok r ∧
      Record.read (r.print .rsa) .hmac = .ok ⟨r.userId, r.token, none⟩ := by
  intro text
  have hfields : (Record.read text .rsa).toOption.map
      (fun r => (r.userId, r.token, r.secret.map Secret.text)) =
        some ("😀", "a\tb", some "-----BEGIN\nMII\x00") := by
    decide +kernel
  obtain ⟨r, hr, hsame⟩ := Option.map_eq_some_iff.mp hfields
  have hread : Record.read text .rsa = .ok r := by
    cases hx : Record.read text .rsa with
    | error e =>
      rw [hx] at hr
      cases hr
    | ok found =>
      rw [hx] at hr
      cases hr
      rfl
  obtain ⟨hschemes, hagain⟩ := records_survive_storage
  exact ⟨r, hread, hsame, hagain text .rsa r hread, hschemes r .rsa .hmac⟩

end SignedConsole.Record
