import SignedConsole.Proofs.JsonRoundTrip
import SignedConsole.Proofs.ReplyOutcomes

namespace SignedConsole

open Json (Document defaulted)

/-- A successful reply whose text spells a document. -/
def Reply.Brings (reply : Reply) (j : Json) : Prop :=
  reply.isSuccess = true ∧ ∃ text, reply.text? = some text ∧ Document text j

namespace Call

/-- The member that holds the list, for the calls that are answered with a list in a record. -/
def listMember? : Call α → Option String
  | listDatabases => some "rdbs"
  | listStores => some "kvs"
  | listDomains => some "domains"
  | getWorker .. => some "versions"
  | _ => none

variable {call : Call α} {name : String} {reply : Reply}

theorem outcome_brought {j : Json} (h : reply.Brings j) : call.outcome reply =
    match call.read j with
    | some a => .ok a
    | none => .error .invalidResponse := by
  obtain ⟨hsuccess, text, htext, hdoc⟩ := h
  refine outcome_of_document htext hsuccess ?_
  rw [replied, isBlankText, hdoc.not_blank]
  exact hdoc

/-- A result is read from the fields of a record. A null in the place of the list spoils it, and an
empty list makes no difference to it. -/
structure ListField (call : Call α) (name : String) (names : List String)
    (take : (String → Option Json) → Option α) : Prop where
  read : ∀ j, call.read j = (j.fields? names).bind take
  known : name ∈ names
  null : ∀ f, f name = some .null → take f = none
  absent : ∀ f, f name = none →
    take (fun other => if other = name then some (.array []) else f other) = take f

/-- Every list that is a member stands in the field of its name. -/
theorem listField_of_listMember (h : call.listMember? = some name) :
    ∃ names take, ListField call name names take := by
  cases call with
  | listDatabases =>
    cases h
    refine ⟨["rdbs", "database_size"], _, fun j => rfl, by decide, fun f hf => ?_,
      fun f hf => ?_⟩ <;>
      simp [hf, defaulted, Json.list?]
  | listStores =>
    cases h
    refine ⟨["kvs"], _, fun j => rfl, by decide, fun f hf => ?_, fun f hf => ?_⟩ <;>
      simp [hf, defaulted, Json.list?]
  | listDomains =>
    cases h
    refine ⟨["domains"], _, fun j => rfl, by decide, fun f hf => ?_, fun f hf => ?_⟩ <;>
      simp [hf, defaulted, Json.list?]
  | getWorker id offset =>
    cases h
    refine ⟨["worker", "versions"], _, fun j => rfl, by decide, fun f hf => ?_, fun f hf => ?_⟩ <;>
      simp [hf, defaulted, Json.list?]
  | _ => cases h

variable {names : List String} {take : (String → Option Json) → Option α}
  {members front back : List (Option String × Json)}

theorem ListField.read_null (h : ListField call name names take)
    (hm : (some name, .null) ∈ members) :
    call.read (.object members) = none := by
  rw [h.read]
  cases hf : Json.fields? names (.object members) with
  | none => rfl
  | some f => exact h.null f (Json.field_of_member hf h.known hm)

theorem ListField.read_empty (h : ListField call name names take)
    (hothers : ∀ m ∈ front ++ back, m.1 ≠ some name) :
    call.read (.object (front ++ (some name, .array []) :: back)) =
      call.read (.object (front ++ back)) := by
  rw [h.read, h.read, Json.fields_insert hothers]
  cases hf : Json.fields? names (.object (front ++ back)) with
  | none => rfl
  | some f => exact h.absent f (Json.field_of_none hf hothers)

/-- Where a list is a member of the reply, null is an invalid response in its place, whatever the
other members are, while an empty list may as well be left out. Where it is the whole reply, null
and the empty list are the same. -/
theorem null_members_are_no_lists (call : Call α) :
    (∀ name members, call.listMember? = some name → (some name, .null) ∈ members →
      ∀ reply : Reply, reply.Brings (.object members) →
        call.outcome reply = .error .invalidResponse) ∧
    (∀ name front back, call.listMember? = some name → (∀ m ∈ front ++ back, m.1 ≠ some name) →
      ∀ full bare : Reply, full.Brings (.object (front ++ (some name, .array []) :: back)) →
        bare.Brings (.object (front ++ back)) → call.outcome full = call.outcome bare) ∧
    ∀ null empty : Reply, null.Brings .null → empty.Brings (.array []) →
      listWorkers.outcome null = .ok [] ∧ listWorkers.outcome empty = .ok [] ∧
      ∀ id, (workerSecrets id).outcome null = .ok [] ∧
        (workerSecrets id).outcome empty = .ok [] := by
  refine ⟨fun name members hname hnull reply hreply => ?_,
    fun name front back hname hothers full bare hfull hbare => ?_,
    fun null empty hnull hempty => ?_⟩
  · obtain ⟨names, take, hfield⟩ := listField_of_listMember hname
    rw [outcome_brought hreply, hfield.read_null hnull]
  · obtain ⟨names, take, hfield⟩ := listField_of_listMember hname
    rw [outcome_brought hfull, outcome_brought hbare, hfield.read_empty hothers]
  · exact ⟨outcome_brought hnull, outcome_brought hempty,
      fun id => ⟨outcome_brought hnull, outcome_brought hempty⟩⟩

/-- A list of stores beside a cursor, given in three ways, and two lists that are a whole reply. -/
theorem stores_beside_cursor :
    let reply (text : String) : Reply := ⟨200, some (Text.utf8 text)⟩
    let nulled := reply "\x7b\"kvs\":null,\"next\":true\x7d"
    let listed := reply "\x7b\"kvs\":[],\"next\":true\x7d"
    let silent := reply "\x7b\"next\":true\x7d"
    listStores.outcome nulled = .error .invalidResponse ∧
      listStores.outcome listed = listStores.outcome silent ∧
      listWorkers.outcome (reply " null") = .ok [] ∧
      (workerSecrets "w1").outcome (reply "[]\n") = .ok [] := by
  intro reply nulled listed silent
  let others : List (Option String × Json) := [(some "next", .bool true)]
  have hnulled : nulled.Brings (.object ((some "kvs", .null) :: others)) :=
    ⟨rfl, _, by decide +kernel, Json.print_document ⟨⟨rfl, trivial⟩, ⟨rfl, trivial⟩, trivial⟩⟩
  have hlisted : listed.Brings (.object ((some "kvs", .array []) :: others)) :=
    ⟨rfl, _, by decide +kernel, Json.print_document ⟨⟨rfl, trivial⟩, ⟨rfl, trivial⟩, trivial⟩⟩
  have hsilent : silent.Brings (.object others) :=
    ⟨rfl, _, by decide +kernel, Json.print_document ⟨⟨rfl, trivial⟩, trivial⟩⟩
  have hnull : (reply " null").Brings .null :=
    ⟨rfl, " null", by decide +kernel, _, _, .cons rfl (.refl _), .null [], .refl _⟩
  have hempty : (reply "[]\n").Brings (.array []) :=
    ⟨rfl, "[]\n", by decide +kernel, _, _, .refl _, .noItems (.refl _), .cons rfl (.refl [])⟩
  obtain ⟨hrefused, hsame, -⟩ := null_members_are_no_lists listStores
  obtain ⟨-, -, hwhole⟩ := null_members_are_no_lists listWorkers
  obtain ⟨hworkers, -, hsecrets⟩ := hwhole _ _ hnull hempty
  exact ⟨hrefused "kvs" _ rfl List.mem_cons_self _ hnulled,
    hsame "kvs" [] others rfl (by decide) _ _ hlisted hsilent, hworkers, (hsecrets "w1").2⟩

/-- A list of databases is empty, and with null in its place the response is invalid. -/
theorem null_databases_are_refused :
    let empty : Reply := ⟨200, some (Text.utf8 "\x7b\"rdbs\":[]\x7d")⟩
    let null : Reply := ⟨200, some (Text.utf8 "\x7b\"rdbs\":null\x7d")⟩
    listDatabases.outcome empty = .ok ⟨[], none⟩ ∧
    listDatabases.outcome null = .error .invalidResponse ∧
    ¬ ∀ (β : Type) (call : Call β) (name : String) (front back : List (Option String × Json))
      (empty null : Reply) (b : β), call.listMember? = some name →
        empty.Brings (.object (front ++ (some name, .array []) :: back)) →
        null.Brings (.object (front ++ (some name, .null) :: back)) →
        call.outcome empty = .ok b → call.outcome null = .ok b := by
  intro empty null
  have hempty : empty.Brings (.object [(some "rdbs", .array [])]) :=
    ⟨rfl, _, by decide +kernel, Json.print_document ⟨⟨rfl, trivial⟩, trivial⟩⟩
  have hnull : null.Brings (.object [(some "rdbs", .null)]) :=
    ⟨rfl, _, by decide +kernel, Json.print_document ⟨⟨rfl, trivial⟩, trivial⟩⟩
  have hlisted : listDatabases.outcome empty = .ok ⟨[], none⟩ := outcome_brought hempty
  have hrefused : listDatabases.outcome null = .error .invalidResponse := outcome_brought hnull
  refine ⟨hlisted, hrefused, fun hclaimed => ?_⟩
  have hsame := hclaimed _ listDatabases "rdbs" [] [] empty null _ rfl hempty hnull hlisted
  rw [hrefused] at hsame
  cases hsame

end Call
end SignedConsole
