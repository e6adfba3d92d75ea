import SignedConsole.Credential.Record
import SignedConsole.Proofs.JsonGrammar
import SignedConsole.Proofs.JsonMembers

namespace SignedConsole.Record

open Json (Document Last Once)

variable {members : List (Option String × Json)}

theorem onlyText_iff {name t : String} :
    onlyText? members name = some t ↔ Once name (.ofString t) members := by
  rw [Json.once_iff, onlyText?]
  constructor
  · intro h
    split at h
    · rename_i m hm
      have hmem : m ∈ members.filter fun m => m.1 == some name := hm ▸ List.mem_singleton_self m
      have hname : m.1 = some name := eq_of_beq (List.mem_filter.mp hmem).2
      rw [hm, ← Json.text_eq_some_iff.mp h, ← hname]
    · cases h
  · intro h
    rw [h]
    rfl

/-- The secret that the members of a name give a record. -/
def givenSecret (name : String) (members : List (Option String × Json)) : Option Secret :=
  ((((Json.object members).lastMember? name).bind Json.text?).filter fun t => !t.isEmpty).map
    Secret.mk

theorem givenSecret_iff (name : String) (s : Secret) :
    givenSecret name members = some s ↔ s.text ≠ "" ∧ Last name (.ofString s.text) members := by
  obtain ⟨t⟩ := s
  simp only [givenSecret, Option.map_eq_some_iff, Option.filter_eq_some_iff,
    Option.bind_eq_some_iff, Json.text_eq_some_iff, Json.last_iff]
  constructor
  · rintro ⟨_, ⟨⟨_, hlast, rfl⟩, hfull⟩, ⟨⟩⟩
    exact ⟨by simpa using hfull, hlast⟩
  · rintro ⟨hfull, hlast⟩
    exact ⟨t, ⟨⟨_, hlast, rfl⟩, by simpa using hfull⟩, rfl⟩

theorem ofJson_iff {scheme : Scheme} {r : Record} :
    ofJson? scheme (.object members) = some r ↔ (Json.object members).isValue = true ∧
      Once "userId" (.ofString r.userId) members ∧ Once "token" (.ofString r.token) members ∧
      ∀ s : Secret, r.secret = some s ↔
        s.text ≠ "" ∧ Last scheme.secretField (.ofString s.text) members := by
  obtain ⟨userId, token, secret⟩ := r
  simp only [ofJson?, ← onlyText_iff, ← givenSecret_iff scheme.secretField]
  split
  · rename_i hvalue
    simp only [hvalue, true_and, Option.bind_eq_bind, Option.bind_eq_some_iff, Option.pure_def,
      Option.some.injEq, Record.mk.injEq]
    constructor
    · rintro ⟨_, huser, _, htoken, rfl, rfl, rfl⟩
      exact ⟨huser, htoken, fun s => Iff.rfl⟩
    · rintro ⟨huser, htoken, hsecret⟩
      exact ⟨userId, huser, token, htoken, rfl, rfl, (Option.ext hsecret).symm⟩
  · rename_i hvalue
    simp [hvalue]

theorem read_ok_iff (text : String) (scheme : Scheme) (r : Record) :
    read text scheme = .ok r ↔
      ∃ members, Document text (.object members) ∧ ofJson? scheme (.object members) = some r := by
  have hread : read text scheme = .ok r ↔ (Json.read text).bind (ofJson? scheme) = some r := by
    rw [Record.read]
    cases (Json.read text).bind (ofJson? scheme) <;> simp
  rw [hread, Option.bind_eq_some_iff]
  constructor
  · rintro ⟨j, hj, hr⟩
    cases j with
    | object members => exact ⟨members, Json.read_iff_document.mp hj, hr⟩
    | _ => cases hr
  · rintro ⟨members, hj, hr⟩
    exact ⟨_, Json.read_iff_document.mpr hj, hr⟩

/-- A text is read as a record if and only if it spells a value that is an object with one user and
one token, both texts, at any place among any other members. The record has these two, and the
secret of the scheme if the last member of its name is a text that is not empty. -/
theorem records_are_objects (text : String) (scheme : Scheme) :
    (∀ r, read text scheme = .ok r ↔ ∃ members, Document text (.object members) ∧
      (Json.object members).isValue = true ∧ Once "userId" (.ofString r.userId) members ∧
      Once "token" (.ofString r.token) members ∧ ∀ s : Secret, r.secret = some s ↔
        s.text ≠ "" ∧ Last scheme.secretField (.ofString s.text) members) ∧
    ((∃ r, read text scheme = .ok r) ↔ ∃ members, Document text (.object members) ∧
      (Json.object members).isValue = true ∧
      (∃ userId, Once "userId" (.ofString userId) members) ∧
      ∃ token, Once "token" (.ofString token) members) := by
  have hread (r : Record) := (read_ok_iff text scheme r).trans
    (exists_congr fun members => and_congr_right fun _ => ofJson_iff)
  refine ⟨hread, ?_⟩
  constructor
  · rintro ⟨r, hr⟩
    obtain ⟨members, htext, hvalue, huser, htoken, -⟩ := (hread r).mp hr
    exact ⟨members, htext, hvalue, ⟨_, huser⟩, _, htoken⟩
  · rintro ⟨members, htext, hvalue, ⟨userId, huser⟩, token, htoken⟩
    let r : Record := ⟨userId, token, givenSecret scheme.secretField members⟩
    exact ⟨r, (hread r).mpr ⟨members, htext, hvalue, huser, htoken, givenSecret_iff _⟩⟩

end SignedConsole.Record
