import SignedConsole.Proofs.JsonRoundTrip
import SignedConsole.Proofs.SignatureHeaders

namespace SignedConsole

/-- The members of the object that a call has to sign. Only calls that change a resource have one;
a removal alone is marked as such. -/
def Call.signedArguments? : Call α → Option (List (String × Json))
  | createDatabase name => some [("name", .ofString name)]
  | createStore kind url => some [("kv_type", .ofString kind), ("url", .ofString url)]
  | createWorker name => some [("worker_name", .ofString name)]
  | createDomain name target => some [("domain", .ofString name), ("target", .ofString target)]
  | setVariable _ (.set key value) | setSecret _ (.set key value) =>
    some [("key", .ofString key), ("value", .ofString value)]
  | setVariable _ (.remove key) | setSecret _ (.remove key) =>
    some [("key", .ofString key), ("value", .ofString ""), ("delete", .bool true)]
  | deleteDatabase _ | deleteStore _ | deleteWorker _ | deleteDomain _ => some []
  | sendCode _ | register .. | login .. | resetPassword .. | listDatabases | getDatabase _
  | listStores | listWorkers | getWorker .. | workerVariables _ | workerSecrets _ | listDomains
  | getDomain _ => none

theorem Call.not_sensitive_of_none {call : Call α} (h : call.signedArguments? = none) :
    call.isSensitive = false := by
  cases call
  case setVariable update => cases update <;> cases h
  case setSecret update => cases update <;> cases h
  all_goals simp_all [signedArguments?, isSensitive]

theorem Call.sensitive_of_some {call : Call α} {arguments : List (String × Json)}
    (h : call.signedArguments? = some arguments) :
    call.isSensitive = true ∧ call.body = some (.ofMembers arguments) ∧
      ∀ m ∈ arguments, m.2.Plain := by
  cases call
  case setVariable update =>
    cases update <;>
      (cases h
       exact ⟨rfl, rfl, by simp [Json.Plain.text, Json.Plain.bool]⟩)
  case setSecret update =>
    cases update <;>
      (cases h
       exact ⟨rfl, rfl, by simp [Json.Plain.text, Json.Plain.bool]⟩)
  all_goals
    first
    | cases h
      exact ⟨rfl, rfl, by simp [Json.Plain.text]⟩
    | simp [signedArguments?] at h

/-- Whether headers are the signature of a body at a time, made with what a session holds. -/
def Headers.Sign (own : Headers) (scheme : Scheme) (now : Nat) (session : Session)
    (body : String) : Prop :=
  match scheme with
  | .hmac => ∀ secret userId, session.secret = some secret → session.userId = some userId →
    own = [(Signing.signatureHeader,
        Signing.hmacSignature secret.text body (Text.decimal now)),
      (Signing.userIdHeader, userId), (Signing.timestampHeader, Text.decimal now)]
  | .rsa => ∀ secret, session.secret = some secret →
    ∃ s, Rsa.signature secret.text body = .ok s ∧ own = [(Signing.signatureHeader, s)]

theorem Headers.Sign.of_headers {scheme : Scheme} {now : Nat} {session : Session} {body : String}
    {hs : Headers} (h : Signing.headers scheme now body session = .ok (some hs)) :
    hs.Sign scheme now session body := by
  rcases Signing.headers_cases scheme now body session with
    ⟨_, hc⟩ | ⟨secret, userId, rfl, hs, hu, hc⟩ | ⟨secret, rfl, hs, hc⟩
  · rw [hc] at h
    cases h
  · rw [hc] at h
    cases h
    intro secret' userId' hs' hu'
    cases hs.symm.trans hs'
    cases hu.symm.trans hu'
    rfl
  · rw [hc] at h
    intro secret' hs'
    cases hs.symm.trans hs'
    cases hsig : Rsa.signature secret.text body with
    | error e =>
      rw [hsig] at h
      cases h
    | ok s =>
      rw [hsig] at h
      cases h
      exact ⟨s, rfl, rfl⟩

/-- Without material nothing is asked of the headers. -/
theorem Headers.Sign.of_missing {scheme : Scheme} {session : Session}
    (h : session.holdsMaterial scheme = false) (own : Headers) (now : Nat) (body : String) :
    own.Sign scheme now session body := by
  cases scheme with
  | hmac =>
    intro secret userId hs hu
    simp [Session.holdsMaterial, hs, hu] at h
  | rsa =>
    intro secret hs
    simp [Session.holdsMaterial, hs] at h

theorem Client.signature_signs {c : Client} {now : Nat} {session : Session} {body : String}
    {signature : Headers} (h : c.signature now session body = .ok signature) :
    signature.own = signature ∧ signature.Sign c.signer now session body := by
  rcases c.signature_cases now session body with
    ⟨e, _, hc⟩ | ⟨hs, hh, hc⟩ | ⟨hm, _, hc⟩ | ⟨_, _, hc⟩
  · rw [hc] at h
    cases h
  · rw [hc] at h
    cases h
    exact ⟨(Signing.headers_own hh).1, .of_headers hh⟩
  · rw [hc] at h
    cases h
    exact ⟨rfl, .of_missing hm [] now body⟩
  · rw [hc] at h
    cases h

/-- A request on the wire is the plain draft of its call with the signature that is due. -/
theorem Client.mem_receivedSince {c : Client} {now : Nat} {session : Session} {call : Call α}
    {w : Wire} {request : Request}
    (h : request ∈ (c.run now session call w).2.receivedSince w) :
    ∃ signature, c.dueSignature now session call = .ok signature ∧
      request.headers.own = signature.own ∧ request.body = call.body.map Json.print := by
  cases hd : c.draft now session call with
  | error e =>
    rw [receivedSince_error hd] at h
    cases h
  | ok d =>
    rw [receivedSince_draft hd] at h
    obtain ⟨signature, hs, rfl⟩ := draft_ok hd
    obtain ⟨_, _, hh, hb⟩ := Draft.request_fields (mem_sentBy h)
    have hheaders : request.headers =
        request.url.basic ++ (contentType :: bearer session ++ signature) := hh
    refine ⟨signature, hs, ?_, hb⟩
    rw [hheaders, Headers.own_append, Headers.own_append, Url.basic_own,
      plain_headers_foreign session, List.nil_append, List.nil_append]

/-- Whatever a call puts on the wire carries the signature of its own body if it changes a resource,
and none otherwise. -/
theorem signatures_cover_wire (c : Client) (now : Nat) (session : Session) :
    (∀ {α : Type} (call : Call α) (w : Wire),
      ∀ request ∈ (c.run now session call w).2.receivedSince w,
        match call.signedArguments? with
        | none => request.headers.own = []
        | some arguments => ∃ body, request.body = some body ∧
          Json.read body = some (.ofMembers arguments) ∧
          (Json.ofMembers arguments).isValue = true ∧
          request.headers.own.Sign c.signer now session body) ∧
    ∀ w, ∀ request ∈ (c.health w).2.receivedSince w, request.headers.own = [] := by
  constructor
  · intro α call w request hr
    obtain ⟨signature, hs, hown, hb⟩ := Client.mem_receivedSince hr
    cases ha : call.signedArguments? with
    | none =>
      simp only [Client.dueSignature, Call.not_sensitive_of_none ha, Bool.false_eq_true, ↓reduceIte,
        Except.ok.injEq] at hs
      rw [hown, ← hs]
      rfl
    | some arguments =>
      obtain ⟨hsensitive, hbody, hplain⟩ := Call.sensitive_of_some ha
      simp only [Client.dueSignature, hsensitive, ↓reduceIte] at hs
      obtain ⟨hsame, hsigns⟩ := Client.signature_signs hs
      refine ⟨(Json.ofMembers arguments).print, by rw [hb, hbody]; rfl,
        Json.read_print (Json.ofMembers_spelled hplain), Json.ofMembers_isValue hplain, ?_⟩
      have hpayload : call.payload = (Json.ofMembers arguments).print := by
        rw [Call.payload, hbody]
        rfl
      rw [hown, hsame, ← hpayload]
      exact hsigns
  · intro w request hr
    rw [Client.health_receivedSince] at hr
    obtain ⟨_, _, hh, _⟩ := Draft.request_fields (Client.mem_sentBy hr)
    rw [hh, Headers.own_append, Url.basic_own]
    rfl

/-- A database is asked for by a request whose signature can be checked against its body. -/
theorem created_database_is_signed :
    let session := Session.of "alice123456" "jwt" (some ⟨"sk_test123"⟩)
    let before : Wire := ⟨true, [], .hangUp, []⟩
    let after := ((Client.of "http://api.test" .hmac .failOpen).run 1700000000000 session
      (.createDatabase "mydb") before).2
    let request : Request := ⟨.post, ⟨false, none, "api.test", none, ["api", "rdb"], none⟩,
      [("content-type", "application/json"), ("authorization", "Bearer jwt"),
        ("X-Combinator-Signature", "fsVlvfl3phYVQWKgFAYsYsGQIDrb1TY_60MnVHeD9UE"),
        ("X-Combinator-User-ID", "alice123456"), ("X-Combinator-Timestamp", "1700000000000")],
      some "\x7b\"name\":\"mydb\"\x7d"⟩
    request ∈ after.receivedSince before ∧ ∃ body, request.body = some body ∧
      Json.read body = some (.ofMembers [("name", .ofString "mydb")]) ∧
      (Json.ofMembers [("name", .ofString "mydb")]).isValue = true ∧
      request.headers.own.Sign .hmac 1700000000000 session body := by
  intro session before after request
  have hr : request ∈ after.receivedSince before := by decide +kernel
  exact ⟨hr, (signatures_cover_wire (.of "http://api.test" .hmac .failOpen) 1700000000000 session).1
    (.createDatabase "mydb") before request hr⟩

end SignedConsole
