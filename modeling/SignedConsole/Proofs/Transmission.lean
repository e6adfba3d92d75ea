import SignedConsole.Api.Client

namespace SignedConsole

/-- The text that a call sends along, empty if it sends nothing. -/
def Call.payload (call : Call α) : String := (call.body.map Json.print).getD ""

/-- The requests that have come in since another moment of the same wire. -/
def Wire.receivedSince (after before : Wire) : List Request :=
  after.received.drop before.received.length

/-- Whether a header belongs to the platform's signatures. -/
def Headers.isOwn (h : String × String) : Bool :=
  "x-combinator-".toList.isPrefixOf (Text.lowerAscii h.1).toList

/-- The headers of a signature. -/
def Headers.own (headers : Headers) : Headers := headers.filter Headers.isOwn

/-- The headers that say who asks. -/
def Headers.authorization (headers : Headers) : Headers :=
  headers.filter fun h => Text.lowerAscii h.1 == "authorization"

theorem Headers.own_append (a b : Headers) : own (a ++ b) = a.own ++ b.own :=
  List.filter_append ..

theorem Headers.authorization_append (a b : Headers) :
    authorization (a ++ b) = a.authorization ++ b.authorization :=
  List.filter_append ..

/-- Who an address names is no part of a signature. -/
theorem Url.basic_own (u : Url) : u.basic.own = [] := by
  have hname : Headers.isOwn ("authorization", "") = false := by decide
  unfold basic
  cases u.user with
  | none => rfl
  | some user => exact List.filter_cons_of_neg (ne_true_of_eq_false hname)

theorem Url.basic_authorization (u : Url) : u.basic.authorization = u.basic := by
  have hname : (Text.lowerAscii "authorization" == "authorization") = true := by decide
  unfold basic
  cases u.user with
  | none => rfl
  | some user => exact List.filter_cons_of_pos hname

def Draft.sign (d : Draft) (signature : Headers) : Draft :=
  { d with headers := d.headers ++ signature }

/-- A request goes out as it was drafted, behind the header for whoever its address names, if its
values can be sent and its address is one. -/
theorem Draft.request_fields {d : Draft} {request : Request} (h : d.request? = some request) :
    request.method = d.method ∧ Url.parse? d.address = some request.url ∧
      request.headers = request.url.basic ++ d.headers ∧ request.body = d.body := by
  unfold Draft.request? at h
  cases hu : Url.parse? d.address with
  | none =>
    rw [hu] at h
    cases h
  | some url =>
    rw [hu] at h
    change (if _ then _ else _) = _ at h
    split at h
    · cases h
      exact ⟨rfl, rfl, rfl, rfl⟩
    · cases h

namespace Client

/-- The signature headers that a call has to carry. -/
def dueSignature (c : Client) (now : Nat) (session : Session) (call : Call α) :
    Except CallError Headers :=
  if call.isSensitive then c.signature now session call.payload else .ok []

/-- The request of a call without its signature headers. -/
def plainDraft (c : Client) (session : Session) (call : Call α) : Draft :=
  ⟨call.method, c.baseUrl ++ call.path, contentType :: bearer session, call.body.map Json.print⟩

theorem draft_eq (c : Client) (now : Nat) (session : Session) (call : Call α) :
    c.draft now session call =
      (c.dueSignature now session call).map (c.plainDraft session call).sign := by
  unfold draft dueSignature
  cases call.isSensitive with
  | false => rfl
  | true =>
    change (c.signature now session call.payload >>= _) = _
    simp only [↓reduceIte]
    cases c.signature now session call.payload <;> rfl

theorem draft_ok {c : Client} {now : Nat} {session : Session} {call : Call α} {d : Draft}
    (h : c.draft now session call = .ok d) : ∃ signature,
      c.dueSignature now session call = .ok signature ∧
      d = (c.plainDraft session call).sign signature := by
  rw [draft_eq] at h
  cases hs : c.dueSignature now session call with
  | error e =>
    rw [hs] at h
    cases h
  | ok signature =>
    rw [hs] at h
    exact ⟨signature, rfl, (Except.ok.inj h).symm⟩

/-- What an exchange puts on a wire. -/
def sentBy (d : Draft) (w : Wire) : List Request := if w.reachable then d.request?.toList else []

theorem exchange_received (d : Draft) (w : Wire) :
    (exchange d w).2.received = w.received ++ sentBy d w := by
  unfold exchange sentBy
  cases d.request? with
  | none => simp
  | some request =>
    unfold Wire.deliver
    cases w.reachable with
    | false => simp
    | true => cases w.answers <;> simp

/-- A reply comes in only for a request that has gone out. -/
theorem exchange_reply {d : Draft} {w w' : Wire} {reply : Reply}
    (h : exchange d w = (some reply, w')) : ∃ request, sentBy d w = [request] := by
  unfold exchange at h
  cases hr : d.request? with
  | none => simp [hr] at h
  | some request =>
    simp only [hr, Wire.deliver] at h
    cases hw : w.reachable with
    | false => simp [hw] at h
    | true => exact ⟨request, by simp [sentBy, hr, hw]⟩

theorem sentBy_length (d : Draft) (w : Wire) : (sentBy d w).length ≤ 1 := by
  unfold sentBy
  cases w.reachable <;> cases d.request? <;> simp

theorem mem_sentBy {d : Draft} {w : Wire} {request : Request} (h : request ∈ sentBy d w) :
    d.request? = some request := by
  unfold sentBy at h
  split at h
  · simpa using h
  · cases h

theorem run_of_error {c : Client} {now : Nat} {session : Session} {call : Call α} {e : CallError}
    (h : c.draft now session call = .error e) (w : Wire) :
    c.run now session call w = (.error e, w) := by
  simp [run, h]

theorem run_of_draft {c : Client} {now : Nat} {session : Session} {call : Call α} {d : Draft}
    (h : c.draft now session call = .ok d) (w : Wire) :
    (c.run now session call w).2 = (exchange d w).2 := by
  simp only [run, h]
  cases hx : exchange d w with
  | mk reply w' => cases reply <;> rfl

theorem receivedSince_error {c : Client} {now : Nat} {session : Session} {call : Call α}
    {e : CallError} (h : c.draft now session call = .error e) (w : Wire) :
    (c.run now session call w).2.receivedSince w = [] := by
  simp [run_of_error h, Wire.receivedSince]

theorem receivedSince_draft {c : Client} {now : Nat} {session : Session} {call : Call α}
    {d : Draft} (h : c.draft now session call = .ok d) (w : Wire) :
    (c.run now session call w).2.receivedSince w = sentBy d w := by
  simp [run_of_draft h, Wire.receivedSince, exchange_received]

/-- What is sent is the call. -/
theorem run_fields {c : Client} {now : Nat} {session : Session} {call : Call α} {w : Wire} :
    ∀ r ∈ (c.run now session call w).2.receivedSince w, r.method = call.method ∧
      Url.parse? (c.baseUrl ++ call.path) = some r.url ∧ r.body = call.body.map Json.print := by
  intro r hr
  cases hd : c.draft now session call with
  | error e =>
    rw [receivedSince_error hd] at hr
    cases hr
  | ok d =>
    rw [receivedSince_draft hd] at hr
    obtain ⟨signature, -, rfl⟩ := draft_ok hd
    obtain ⟨hmethod, hurl, -, hbody⟩ := Draft.request_fields (mem_sentBy hr)
    exact ⟨hmethod, hurl, hbody⟩

/-- A wire only gets longer, by what a call sends. -/
theorem run_received (c : Client) (now : Nat) (session : Session) (call : Call α) (w : Wire) :
    (c.run now session call w).2.received =
      w.received ++ (c.run now session call w).2.receivedSince w := by
  cases h : c.draft now session call with
  | error e => simp [run_of_error h, Wire.receivedSince]
  | ok d => rw [receivedSince_draft h, run_of_draft h, exchange_received]

theorem health_wire (c : Client) (w : Wire) : (c.health w).2 = (exchange c.healthDraft w).2 := by
  unfold health
  cases hx : exchange c.healthDraft w with
  | mk reply w' => cases reply <;> rfl

theorem health_receivedSince (c : Client) (w : Wire) :
    (c.health w).2.receivedSince w = sentBy c.healthDraft w := by
  simp [health_wire, Wire.receivedSince, exchange_received]

end Client
end SignedConsole
