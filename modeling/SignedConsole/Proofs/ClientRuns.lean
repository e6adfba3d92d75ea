import SignedConsole.Proofs.SignatureHeaders

namespace SignedConsole.Client

/-- What is done with a client. -/
inductive Move : Type 1 where
  | call {α : Type} (now : Nat) (call : Call α)
  | health
  | session (next : Session)

/-- A call as it went: on which wire, with which outcome, and what has come in since. -/
inductive Exchange : Type 1 where
  | call {α : Type} (session : Session) (now : Nat) (call : Call α) (wire : Wire)
      (outcome : Except CallError α) (sent : List Request)
  | health (wire : Wire) (outcome : Except CallError Bool) (sent : List Request)

def Exchange.sent : Exchange → List Request
  | .call _ _ _ _ _ sent => sent
  | .health _ _ sent => sent

/-- Makes the moves in order, and keeps what the calls among them came to. -/
def play (c : Client) : Session → Wire → List Move → List Exchange × Wire
  | _, w, [] => ([], w)
  | _, w, .session next :: moves => c.play next w moves
  | session, w, .call now call :: moves =>
    let (outcome, after) := c.run now session call w
    let (later, last) := c.play session after moves
    (.call session now call w outcome (after.receivedSince w) :: later, last)
  | session, w, .health :: moves =>
    let (outcome, after) := c.health w
    let (later, last) := c.play session after moves
    (.health w outcome (after.receivedSince w) :: later, last)

/-- How often a call may have been sent, by its outcome. -/
structure Counted (outcome : Except CallError α) (sent : List Request) : Prop where
  givenUp : ∀ e, outcome = .error e → e.isLocal = true → sent = []
  answered : ∀ a, outcome = .ok a → sent.length = 1
  refused : ∀ status message, outcome = .error (.server status message) → sent.length = 1
  unreadable : outcome = .error .invalidResponse → sent.length = 1
  lost : outcome = .error .network → sent.length ≤ 1

/-- A request and another that differ at most in headers other than the authorization. -/
structure Twins (request other : Request) : Prop where
  method : other.method = request.method
  url : other.url = request.url
  body : other.body = request.body
  authorization : other.headers.authorization = request.headers.authorization

/-- What holds of every call that a client makes. -/
structure Careful (c : Client) (session : Session) (now : Nat) (call : Call α) (wire : Wire)
    (outcome : Except CallError α) (sent : List Request) : Prop where
  counted : Counted outcome sent
  signed : c.policy = .failClosed → call.isSensitive = true →
    ∀ request ∈ sent, ∃ s, (Signing.signatureHeader, s) ∈ request.headers
  unsignable : call.isSensitive = true →
    ∀ e, Signing.headers c.signer now call.payload session = .error e →
      outcome = .error (.signing e) ∧ sent = []
  withheld : c.policy = .failClosed → call.isSensitive = true →
    session.holdsMaterial c.signer = false →
      outcome = .error .missingSigningMaterial ∧ sent = []
  /-- The request of a session that lacks material is the one of a session that does not, less the
  signature. -/
  unsigned : c.policy = .failOpen → call.isSensitive = true →
    session.holdsMaterial c.signer = false → wire.reachable = true →
    (Url.parse? (c.baseUrl ++ call.path)).isSome = true →
    (∀ t, session.token = some t → Headers.isValue t = true) →
      ∃ request, sent = [request] ∧ request.headers.own = [] ∧
        ∀ (full : Session) (later : Nat) (w : Wire), full.token = session.token →
          full.holdsMaterial c.signer = true →
          (∀ other ∈ (c.run later full call w).2.receivedSince w, Twins request other) ∧
          ∀ signature, Signing.headers c.signer later call.payload full = .ok (some signature) →
            (∀ h ∈ signature, Headers.isValue h.2 = true) → w.reachable = true →
            ∃ other, (c.run later full call w).2.receivedSince w = [other]

def Exchange.Sound (c : Client) : Exchange → Prop
  | .call session now made wire outcome sent => c.Careful session now made wire outcome sent
  | .health _ outcome sent => Counted outcome sent

/-- A call comes to nothing, or to what its reply says after one request. -/
theorem run_outcome {c : Client} {now : Nat} {session : Session} {call : Call α} {d : Draft}
    (h : c.draft now session call = .ok d) (w : Wire) :
    (c.run now session call w).1 = .error .network ∨
      ∃ reply request, (c.run now session call w).1 = call.outcome reply ∧
        sentBy d w = [request] := by
  cases hx : exchange d w with
  | mk found after =>
    cases found with
    | none => exact Or.inl (by simp [run, h, hx])
    | some reply =>
      obtain ⟨request, hr⟩ := exchange_reply hx
      exact Or.inr ⟨reply, request, by simp [run, h, hx], hr⟩

/-- No reply makes a call one that was given up before it was sent. -/
theorem outcome_not_local {call : Call α} {reply : Reply} {e : CallError}
    (h : call.outcome reply = .error e) : e.isLocal = false := by
  unfold Call.outcome at h
  split at h
  · cases h
    rfl
  · split at h
    · split at h
      · cases h
      · cases h
        rfl
    · cases h
      rfl

/-- Only the signature can keep a call from being drafted. -/
theorem draft_error {c : Client} {now : Nat} {session : Session} {call : Call α}
    {e : CallError} (h : c.draft now session call = .error e) : e.isLocal = true := by
  rw [draft_eq] at h
  cases hs : c.dueSignature now session call with
  | ok signature =>
    rw [hs] at h
    cases h
  | error cause =>
    rw [hs] at h
    cases h
    unfold dueSignature at hs
    split at hs
    · rcases c.signature_cases now session call.payload with
        ⟨e, _, hc⟩ | ⟨found, _, hc⟩ | ⟨_, _, hc⟩ | ⟨_, _, hc⟩
      · cases hc.symm.trans hs
        rfl
      · cases hc.symm.trans hs
      · cases hc.symm.trans hs
      · cases hc.symm.trans hs
        rfl
    · cases hs

theorem Counted.of_givenUp {e : CallError} (h : e.isLocal = true) :
    Counted (Except.error e : Except CallError α) [] where
  givenUp := fun _ _ _ => rfl
  answered := by rintro a ⟨⟩
  refused := by
    rintro status message ⟨⟩
    cases h
  unreadable := by
    rintro ⟨⟩
    cases h
  lost := fun _ => Nat.zero_le 1

theorem Counted.of_lost {sent : List Request} (h : sent.length ≤ 1) :
    Counted (Except.error .network : Except CallError α) sent where
  givenUp := by
    rintro e ⟨⟩ hl
    cases hl
  answered := by rintro a ⟨⟩
  refused := by rintro status message ⟨⟩
  unreadable := by rintro ⟨⟩
  lost := fun _ => h

theorem Counted.of_sent {outcome : Except CallError α} (request : Request)
    (h : ∀ e, outcome = .error e → e.isLocal = false) : Counted outcome [request] where
  givenUp := by
    intro e he hl
    rw [h e he] at hl
    cases hl
  answered := fun _ _ => rfl
  refused := fun _ _ _ => rfl
  unreadable := fun _ => rfl
  lost := fun _ => Nat.le_refl 1

theorem run_counted (c : Client) (now : Nat) (session : Session) (call : Call α) (w : Wire) :
    Counted (c.run now session call w).1 ((c.run now session call w).2.receivedSince w) := by
  cases hd : c.draft now session call with
  | error e =>
    rw [receivedSince_error hd, run_of_error hd]
    exact .of_givenUp (draft_error hd)
  | ok d =>
    rw [receivedSince_draft hd]
    rcases run_outcome hd w with hn | ⟨reply, request, ho, hr⟩
    · rw [hn]
      exact .of_lost (sentBy_length d w)
    · rw [ho, hr]
      exact .of_sent request fun e he => outcome_not_local he

theorem health_counted (c : Client) (w : Wire) :
    Counted (c.health w).1 ((c.health w).2.receivedSince w) := by
  rw [health_receivedSince]
  unfold health
  cases hx : exchange c.healthDraft w with
  | mk found after =>
    cases found with
    | none => exact .of_lost (sentBy_length _ w)
    | some reply =>
      obtain ⟨request, hr⟩ := exchange_reply hx
      rw [hr]
      exact .of_sent request (by rintro e ⟨⟩)

theorem health_received (c : Client) (w : Wire) :
    (c.health w).2.received = w.received ++ (c.health w).2.receivedSince w := by
  rw [health_receivedSince, health_wire, exchange_received]

/-- A call that cannot be signed ends with the reason, before anything is sent. -/
theorem run_of_unsigned {c : Client} {now : Nat} {session : Session} {call : Call α} {e : CallError}
    (hc : call.isSensitive = true) (h : c.signature now session call.payload = .error e)
    (w : Wire) : (c.run now session call w).1 = .error e ∧
      (c.run now session call w).2.receivedSince w = [] := by
  have hd : c.draft now session call = .error e := by
    rw [draft_eq, dueSignature, if_pos hc, h]
    rfl
  exact ⟨by rw [run_of_error hd], receivedSince_error hd w⟩

theorem draft_of_signature {c : Client} {now : Nat} {session : Session} {call : Call α}
    {signature : Headers} (hc : call.isSensitive = true)
    (h : c.signature now session call.payload = .ok signature) :
    c.draft now session call = .ok ((c.plainDraft session call).sign signature) := by
  rw [draft_eq, dueSignature, if_pos hc, h]
  rfl

/-- What goes out for a draft whose address and headers are good. -/
theorem sentBy_good {d : Draft} {w : Wire} {url : Url} (hu : Url.parse? d.address = some url)
    (hh : ∀ h ∈ d.headers, Headers.isValue h.2 = true) (hw : w.reachable = true) :
    sentBy d w = [⟨d.method, url, url.basic ++ d.headers, d.body⟩] := by
  have hall : (d.headers.all fun h => Headers.isValue h.2) = true := List.all_eq_true.mpr hh
  rw [sentBy, if_pos hw, Draft.request?, hu]
  simp [hall]

/-- The headers of a plain draft are good if the token is. -/
theorem plain_headers_good {session : Session}
    (ht : ∀ t, session.token = some t → Headers.isValue t = true) :
    ∀ h ∈ contentType :: bearer session, Headers.isValue h.2 = true := by
  intro h hm
  rcases List.mem_cons.mp hm with rfl | hm
  · decide
  · obtain ⟨t, hs, rfl⟩ := List.mem_map.mp hm
    have hv := ht t (by simpa using hs)
    have hb : Headers.isValue "Bearer " = true := by decide
    simp only [Headers.isValue, String.toList_append, List.all_append] at hv hb ⊢
    rw [hb, hv]
    rfl

theorem run_careful (c : Client) (session : Session) (now : Nat) (call : Call α) (w : Wire) :
    c.Careful session now call w (c.run now session call w).1
      ((c.run now session call w).2.receivedSince w) where
  counted := run_counted c now session call w
  signed := by
    intro hp hc request hr
    rcases c.signature_cases now session call.payload with
      ⟨e, _, hs⟩ | ⟨signature, hh, hs⟩ | ⟨_, ho, _⟩ | ⟨_, _, hs⟩
    · rw [(run_of_unsigned hc hs w).2] at hr
      cases hr
    · rw [receivedSince_draft (draft_of_signature hc hs)] at hr
      obtain ⟨s, hm⟩ := (Signing.headers_own hh).2
      refine ⟨s, ?_⟩
      rw [(Draft.request_fields (mem_sentBy hr)).2.2.1]
      exact List.mem_append_right _ (List.mem_append_right _ hm)
    · cases hp.symm.trans ho
    · rw [(run_of_unsigned hc hs w).2] at hr
      cases hr
  unsignable := by
    intro hc e he
    refine run_of_unsigned hc ?_ w
    rw [signature, he]
  withheld := by
    intro hp hc hm
    refine run_of_unsigned hc ?_ w
    rw [signature, Signing.headers_none_iff.mpr hm]
    simp only [hp]
  unsigned := by
    intro hp hc hm hw hu ht
    obtain ⟨url, hu⟩ := Option.isSome_iff_exists.mp hu
    have hs : c.signature now session call.payload = .ok [] := by
      rw [signature, Signing.headers_none_iff.mpr hm]
      simp only [hp]
    have hgood := plain_headers_good ht
    refine ⟨⟨call.method, url, url.basic ++ (contentType :: bearer session),
      call.body.map Json.print⟩, ?_, ?_, ?_⟩
    · rw [receivedSince_draft (draft_of_signature hc hs)]
      have hd : (c.plainDraft session call).sign [] = c.plainDraft session call := by
        simp [Draft.sign]
      rw [hd]
      exact sentBy_good hu hgood hw
    · rw [Headers.own_append, Url.basic_own, plain_headers_foreign session]
      rfl
    · intro full later w' htoken hfull
      have hplain : c.plainDraft full call = c.plainDraft session call := by
        simp only [plainDraft, bearer, htoken]
      constructor
      · intro other ho
        rcases c.signature_cases later full call.payload with
          ⟨e, _, hs⟩ | ⟨signature, hh, hs⟩ | ⟨hn, _, _⟩ | ⟨hn, _, _⟩
        · rw [(run_of_unsigned hc hs w').2] at ho
          cases ho
        · rw [receivedSince_draft (draft_of_signature hc hs), hplain] at ho
          obtain ⟨hmethod, hurl, hheaders, hbody⟩ := Draft.request_fields (mem_sentBy ho)
          obtain rfl : other.url = url := Option.some.inj (hurl.symm.trans hu)
          refine ⟨hmethod, rfl, hbody, ?_⟩
          have hsigned := Headers.no_authorization_of_own (Signing.headers_own hh).1
          rw [hheaders, Draft.sign, ← List.append_assoc, Headers.authorization_append, hsigned,
            List.append_nil]
          rfl
        · rw [hfull] at hn
          cases hn
        · rw [hfull] at hn
          cases hn
      · intro signature hh hgoodSignature hw'
        have hs : c.signature later full call.payload = .ok signature := by
          rw [Client.signature, hh]
        rw [receivedSince_draft (draft_of_signature hc hs), hplain]
        refine ⟨_, sentBy_good hu ?_ hw'⟩
        intro h hm
        rcases List.mem_append.mp hm with hm | hm
        · exact hgood h hm
        · exact hgoodSignature h hm

/-- Every call of a run is careful, and a run sends what its calls send. -/
theorem runs_are_careful (c : Client) :
    (∀ (scheme : Scheme) (now : Nat) (body : String) (session : Session) (e : CredentialError),
      Signing.headers scheme now body session = .error e → e.isSigningFailure = true) ∧
    ∀ (moves : List Move) (session : Session) (w : Wire),
      (∀ e ∈ (c.play session w moves).1, e.Sound c) ∧
      (c.play session w moves).2.received =
        w.received ++ (c.play session w moves).1.flatMap Exchange.sent := by
  refine ⟨fun _ _ _ _ _ h => Signing.headers_failure h, fun moves => ?_⟩
  induction moves with
  | nil => exact fun _ w => ⟨by simp [play], by simp [play]⟩
  | cons move moves ih =>
    intro session w
    cases move with
    | session next => exact ih next w
    | call now call =>
      obtain ⟨hsound, hreceived⟩ := ih session (c.run now session call w).2
      refine ⟨?_, ?_⟩
      · intro e he
        rcases List.mem_cons.mp he with rfl | he
        · exact run_careful c session now call w
        · exact hsound e he
      · change (c.play session (c.run now session call w).2 moves).2.received = _
        rw [hreceived, run_received, List.append_assoc]
        rfl
    | health =>
      obtain ⟨hsound, hreceived⟩ := ih session (c.health w).2
      refine ⟨?_, ?_⟩
      · intro e he
        rcases List.mem_cons.mp he with rfl | he
        · exact health_counted c w
        · exact hsound e he
      · change (c.play session (c.health w).2 moves).2.received = _
        rw [hreceived, health_received, List.append_assoc]
        rfl

/-- A strict client refuses to a guest what it signs for a user, and a key that is none is no
failure of the storage. -/
theorem strict_client_signs :
    let c := Client.of "http://api.test" .hmac .failClosed
    let user := Session.of "alice123456" "jwt" (some ⟨"sk_test123"⟩)
    let before : Wire := ⟨true, [], .hangUp, []⟩
    let run := c.play .anonymous before
      [.call 1 (.createDatabase "mydb"), .session user, .call 2 (.deleteDatabase "db1")]
    (∃ e, Signing.headers .rsa 1 "\x7b\x7d" (.of "" "" (some ⟨"-----no key"⟩)) = .error e ∧
      e.isSigningFailure = true) ∧
    (c.run 1 .anonymous (.createDatabase "mydb") before).1 = .error .missingSigningMaterial ∧
    ∃ request signature, run.2.received = [request] ∧
      (Signing.signatureHeader, signature) ∈ request.headers := by
  intro c user before run
  obtain ⟨hfailure, hruns⟩ := runs_are_careful c
  obtain ⟨hsound, hreceived⟩ := hruns
    [.call 1 (.createDatabase "mydb"), .session user, .call 2 (.deleteDatabase "db1")]
    .anonymous before
  have hguest := hsound _ List.mem_cons_self
  have huser := hsound _ (List.mem_cons_of_mem _ List.mem_cons_self)
  have hrefused := (hguest.withheld rfl rfl rfl).1
  have hkey : Signing.headers .rsa 1 "\x7b\x7d" (.of "" "" (some ⟨"-----no key"⟩)) =
      .error (.invalidKey "PEM contains no key material") := by rfl
  refine ⟨⟨_, hkey, hfailure _ _ _ _ _ hkey⟩, hrefused, ?_⟩
  have hone : run.2.received.length = 1 := by decide +kernel
  obtain ⟨request, hrequest⟩ := List.length_eq_one_iff.mp hone
  have hmem : request ∈ run.2.received := by simp [hrequest]
  rw [show run.2.received = _ from hreceived] at hmem
  obtain ⟨e, he, hsent⟩ := List.mem_flatMap.mp (List.nil_append _ ▸ hmem)
  rcases List.mem_cons.mp he with rfl | he
  · cases (show request ∈ [] from hsent)
  · cases List.mem_singleton.mp he
    obtain ⟨signature, hs⟩ := huser.signed rfl rfl request hsent
    exact ⟨request, signature, hrequest, hs⟩

end SignedConsole.Client
