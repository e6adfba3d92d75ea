import SignedConsole.Api.Client
import SignedConsole.Proofs.JsonGrammar
import SignedConsole.Proofs.JsonMembers

namespace SignedConsole

open Json (Document Last)

namespace Call

/-- A body that says why a call has failed: the last member `error` of an object is a text that is
not empty. -/
def Reports (text message : String) : Prop :=
  message ≠ "" ∧ ∃ members, Document text (.object members) ∧
    (Json.object members).isValue = true ∧ Last "error" (.ofString message) members

/-- The message that a body gives, empty or not. -/
def givenMessage (text : String) : Option String := do
  let j ← Json.read text
  if j.isValue then (← j.lastMember? "error").text? else none

theorem givenMessage_iff {text message : String} : givenMessage text = some message ↔
    ∃ members, Document text (.object members) ∧ (Json.object members).isValue = true ∧
      Last "error" (.ofString message) members := by
  simp only [givenMessage, Option.bind_eq_bind, Option.bind_eq_some_iff]
  constructor
  · rintro ⟨j, hj, h⟩
    split at h
    · rename_i hvalue
      obtain ⟨v, hlast, hv⟩ := Option.bind_eq_some_iff.mp h
      cases j with
      | object members =>
        rw [Json.text_eq_some_iff.mp hv] at hlast
        exact ⟨members, Json.read_iff_document.mp hj, hvalue, Json.last_iff.mpr hlast⟩
      | _ => cases hlast
    · cases h
  · rintro ⟨members, htext, hvalue, hlast⟩
    refine ⟨_, Json.read_iff_document.mpr htext, ?_⟩
    rw [if_pos hvalue, Json.last_iff.mp hlast]
    rfl

theorem failureMessage_eq (text : String) : failureMessage text =
    match givenMessage text with
    | some m => if m.isEmpty then genericFailure else m
    | none => genericFailure := rfl

theorem reports_iff {text message : String} :
    Reports text message ↔ message ≠ "" ∧ givenMessage text = some message := by
  rw [Reports, givenMessage_iff]

/-- A failed call has the message that its body reports. -/
theorem failureMessage_reported {text message : String} (h : Reports text message) :
    failureMessage text = message := by
  obtain ⟨hfull, hgiven⟩ := reports_iff.mp h
  rw [failureMessage_eq, hgiven]
  exact if_neg (by simpa using hfull)

theorem failureMessage_unreported {text : String} (h : ∀ message, ¬Reports text message) :
    failureMessage text = "Request failed" := by
  rw [failureMessage_eq]
  cases hgiven : givenMessage text with
  | none => rfl
  | some m =>
    by_cases hempty : m = ""
    · rw [hempty]
      rfl
    · exact absurd (reports_iff.mpr ⟨hempty, hgiven⟩) (h m)

theorem failureMessage_full (text : String) : failureMessage text ≠ "" := by
  by_cases h : ∃ message, Reports text message
  · obtain ⟨message, h⟩ := h
    rw [failureMessage_reported h]
    exact h.1
  · rw [failureMessage_unreported (not_exists.mp h)]
    decide

/-- The result of a call that is told nothing, where that is a result: there is nothing to list, and
what had to be deleted has been. -/
def ofNothing : Call α → Option α
  | listWorkers | workerVariables _ | setVariable .. | workerSecrets _ | setSecret .. => some []
  | deleteDatabase _ | deleteStore _ | deleteWorker _ | deleteDomain _ => some ()
  | sendCode _ | register .. | login .. | resetPassword .. | listDatabases | getDatabase _
  | createDatabase _ | listStores | createStore .. | getWorker .. | createWorker _ | listDomains
  | getDomain _ | createDomain .. => none

theorem read_null (call : Call α) : call.read .null = call.ofNothing := by
  cases call <;> rfl

/-- The document text of a reply: a blank body stands for null. -/
def replied (text : String) : String := if isBlankText text then "null" else text

variable {call : Call α} {reply : Reply} {text : String}

theorem outcome_of_failure (ht : reply.text? = some text) (hs : reply.isSuccess = false) :
    call.outcome reply = .error (.server reply.status (failureMessage text)) := by
  simp [outcome, ht, hs]

theorem outcome_of_success (ht : reply.text? = some text) (hs : reply.isSuccess = true) :
    call.outcome reply = match (Json.read (replied text)).bind call.read with
      | some a => .ok a
      | none => .error .invalidResponse := by
  rw [outcome, ht]
  exact if_pos hs

/-- A successful reply that spells a document has the result that the call reads in it. -/
theorem outcome_of_document {j : Json} (ht : reply.text? = some text) (hs : reply.isSuccess = true)
    (hj : Document (replied text) j) : call.outcome reply = match call.read j with
      | some a => .ok a
      | none => .error .invalidResponse := by
  rw [outcome_of_success ht hs, Json.read_iff_document.mpr hj, Option.bind_some]

theorem outcome_ok_iff (ht : reply.text? = some text) (hs : reply.isSuccess = true) {a : α} :
    call.outcome reply = .ok a ↔ ∃ j, Document (replied text) j ∧ call.read j = some a := by
  have hread : (∃ j, Document (replied text) j ∧ call.read j = some a) ↔
      (Json.read (replied text)).bind call.read = some a := by
    simp only [Option.bind_eq_some_iff, Json.read_iff_document]
  rw [outcome_of_success ht hs, hread]
  cases (Json.read (replied text)).bind call.read <;> simp

/-- A successful reply has a result or is invalid; none is a failure of the server. -/
theorem outcome_success_cases (ht : reply.text? = some text) (hs : reply.isSuccess = true) :
    (∃ a, call.outcome reply = .ok a) ∨ call.outcome reply = .error .invalidResponse := by
  rw [outcome_of_success ht hs]
  cases (Json.read (replied text)).bind call.read with
  | some a => exact Or.inl ⟨a, rfl⟩
  | none => exact Or.inr rfl

theorem document_null : Document "null" .null :=
  ⟨_, [], .refl _, .null [], .refl _⟩

theorem outcome_of_blank (ht : reply.text? = some text) (hs : reply.isSuccess = true)
    (hblank : isBlankText text = true) : call.outcome reply = match call.ofNothing with
      | some a => .ok a
      | none => .error .invalidResponse := by
  have hnull : Document (replied text) .null := by
    rw [replied, if_pos hblank]
    exact document_null
  rw [outcome_of_document ht hs hnull, read_null]

end Call

namespace Client

variable {c : Client} {now : Nat} {session : Session} {call : Call α} {d : Draft} {w w' : Wire}
  {reply : Reply} {text : String}

theorem run_of_reply (hd : c.draft now session call = .ok d)
    (hx : exchange d w = (some reply, w')) :
    c.run now session call w = (call.outcome reply, w') := by
  simp only [run, hd, hx]

/-- What a call comes to once its reply has come in, by status and body. Outside the successes it is
a failure of the server with that status, and its message is the one that the body reports or else
the generic one. A success is never one: what the call reads in the body is the result, and if it
reads none the response is invalid. A blank body is read as null, which empties the lists of
workers, variables and secrets and suits every deletion. -/
theorem replies_are_classified (hd : c.draft now session call = .ok d)
    (hx : exchange d w = (some reply, w')) (ht : reply.text? = some text) :
    let result := (c.run now session call w).1
    (¬(200 ≤ reply.status ∧ reply.status ≤ 299) → ∃ m, result = .error (.server reply.status m) ∧
      m ≠ "" ∧ (∀ message, Call.Reports text message → m = message) ∧
      ((∀ message, ¬Call.Reports text message) → m = "Request failed")) ∧
    (200 ≤ reply.status ∧ reply.status ≤ 299 →
      let said := if text.toList.all Text.isBlank then "null" else text
      ((∃ a, result = .ok a) ∨ result = .error .invalidResponse) ∧
      (∀ a, result = .ok a ↔ ∃ j, Document said j ∧ call.read j = some a) ∧
      (text.toList.all Text.isBlank = true → result = match call.ofNothing with
        | some a => .ok a
        | none => .error .invalidResponse)) := by
  intro result
  have hresult : result = call.outcome reply := congrArg Prod.fst (run_of_reply hd hx)
  clear_value result
  subst hresult
  have hstatus : reply.isSuccess = true ↔ 200 ≤ reply.status ∧ reply.status ≤ 299 := by
    simp [Reply.isSuccess]
  constructor
  · intro hfailed
    rw [← hstatus, Bool.not_eq_true] at hfailed
    exact ⟨_, Call.outcome_of_failure ht hfailed, Call.failureMessage_full text,
      fun _ => Call.failureMessage_reported, Call.failureMessage_unreported⟩
  · intro hsuccess
    rw [← hstatus] at hsuccess
    exact ⟨Call.outcome_success_cases ht hsuccess, fun a => Call.outcome_ok_iff ht hsuccess,
      Call.outcome_of_blank ht hsuccess⟩

/-- The next answer comes back for a draft that can be sent. -/
theorem exchange_answered {d : Draft} {w : Wire} {status : Nat} {body : Bytes} {rest : List Answer}
    (hd : d.request?.isSome = true) (hw : w.reachable = true)
    (ha : w.answers = .reply status body :: rest) (hs : Wire.withoutBody status = false) :
    ∃ w', exchange d w = (some ⟨status, some body⟩, w') ∧ w'.reachable = true ∧
      w'.answers = rest := by
  obtain ⟨request, hr⟩ := Option.isSome_iff_exists.mp hd
  simp [exchange, hr, Wire.deliver, hw, ha, Wire.replyOf, hs]

/-- A wide space lists no workers, and of two messages the last one is given. -/
theorem blank_and_failed_replies :
    let c : Client := .of "http://api.test" .rsa .failOpen
    let session : Session := .of "alice" "jwt" none
    let gone := "\x7b\"error\":1,\"err\\u006fr\":\"gone\"\x7d"
    let w : Wire :=
      ⟨true, [.reply 200 [0xE3, 0x80, 0x80], .reply 404 (Text.utf8 gone)], .hangUp, []⟩
    let listed := c.run 1 session .listWorkers w
    listed.1 = .ok [] ∧
      (c.run 1 session (.deleteDatabase "a") listed.2).1 = .error (.server 404 "gone") := by
  intro c session gone w listed
  let headers : Headers := [("content-type", "application/json"), ("authorization", "Bearer jwt")]
  let list : Draft := ⟨.get, "http://api.test/api/worker", headers, none⟩
  let delete : Draft := ⟨.delete, "http://api.test/api/rdb/a", headers, some "\x7b\x7d"⟩
  have hlist : c.draft 1 session .listWorkers = .ok list := by rfl
  have hdelete : c.draft 1 session (.deleteDatabase "a") = .ok delete := by rfl
  obtain ⟨w₁, hx, hreach, hanswers⟩ :=
    exchange_answered (d := list) (w := w) (by decide +kernel) rfl rfl rfl
  obtain ⟨w₂, hx', -, -⟩ :=
    exchange_answered (d := delete) (by decide +kernel) hreach hanswers rfl
  have hlisted : listed = (Call.listWorkers.outcome ⟨200, some [0xE3, 0x80, 0x80]⟩, w₁) :=
    run_of_reply hlist hx
  have hwide : Reply.text? ⟨200, some [0xE3, 0x80, 0x80]⟩ = some "\u3000" := by decide +kernel
  have htold : Reply.text? ⟨404, some (Text.utf8 gone)⟩ = some gone := by decide +kernel
  have hblank := (replies_are_classified hlist hx hwide).2 (by decide)
  have hfailed := (replies_are_classified hdelete hx' htold).1 (by decide)
  obtain ⟨m, hm, -, hreported, -⟩ := hfailed
  have hgone : Call.Reports gone "gone" := Call.reports_iff.mpr ⟨by decide, by decide +kernel⟩
  rw [hlisted, hm, hreported _ hgone]
  exact ⟨(run_of_reply hlist hx).symm ▸ hblank.2.2 (by decide), rfl⟩

end Client
end SignedConsole
