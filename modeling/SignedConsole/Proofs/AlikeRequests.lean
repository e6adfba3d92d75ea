import Mathlib.Data.List.Forall2
import SignedConsole.Proofs.PlainPrograms
import SignedConsole.Proofs.Transmission
import SignedConsole.Proofs.UrlAlphabet

namespace SignedConsole

/-- Results of which both are one failure, or that are related. -/
inductive ResultsAlike (Q : α → β → Prop) : Except ε α → Except ε β → Prop where
  | ok {a : α} {b : β} (h : Q a b) : ResultsAlike Q (.ok a) (.ok b)
  | error (e : ε) : ResultsAlike Q (.error e) (.error e)

theorem ResultsAlike.mono {Q R : α → β → Prop} {x : Except ε α} {y : Except ε β}
    (h : ResultsAlike Q x y) (hqr : ∀ a b, Q a b → R a b) : ResultsAlike R x y := by
  cases h with
  | ok h => exact .ok (hqr _ _ h)
  | error e => exact .error e

/-- Headers of one name that differ in nothing, or are two signatures with a shared secret. -/
structure Headers.Match (g h : String × String) : Prop where
  name : h.1 = g.1
  value : if g.1 = Signing.signatureHeader then g.2.length = 43 ∧ h.2.length = 43 else h.2 = g.2

/-- Headers in one order that match, and that can be sent if the others can. -/
structure Headers.Alike (gs hs : Headers) : Prop where
  pairs : List.Forall₂ Match gs hs
  values : (hs.all fun h => isValue h.2) = gs.all fun h => isValue h.2

namespace Headers

/-- Headers without a signature match themselves only. -/
theorem Alike.refl {hs : Headers} (h : ∀ g ∈ hs, g.1 ≠ Signing.signatureHeader) : Alike hs hs := by
  refine ⟨List.forall₂_same.mpr fun g hg => ⟨rfl, ?_⟩, rfl⟩
  rw [if_neg (h g hg)]

theorem Alike.append {gs hs gs' hs' : Headers} (h : Alike gs hs) (h' : Alike gs' hs') :
    Alike (gs ++ gs') (hs ++ hs') :=
  ⟨List.rel_append h.pairs h'.pairs, by rw [List.all_append, List.all_append, h.values, h'.values]⟩

end Headers

/-- Who an address names is told in a header of its own, and that is no signature. -/
theorem Url.basic_alike (u : Url) : Headers.Alike u.basic u.basic := by
  refine .refl fun g hg => ?_
  obtain ⟨user, _, rfl⟩ := List.mem_map.mp hg
  simp [Signing.signatureHeader]

namespace Signing

/-- The signature headers of one body with one secret, and of another with another. -/
theorem signed_alike (secret other body text userId time : String) :
    Headers.Alike
      [(signatureHeader, hmacSignature secret body time), (userIdHeader, userId),
        (timestampHeader, time)]
      [(signatureHeader, hmacSignature other text time), (userIdHeader, userId),
        (timestampHeader, time)] := by
  have hrest : Headers.Alike [(userIdHeader, userId), (timestampHeader, time)]
      [(userIdHeader, userId), (timestampHeader, time)] := by
    refine .refl fun g hg => ?_
    simp only [List.mem_cons, List.not_mem_nil, or_false] at hg
    rcases hg with rfl | rfl <;> simp [signatureHeader, userIdHeader, timestampHeader]
  have hfirst : Headers.Alike [(signatureHeader, hmacSignature secret body time)]
      [(signatureHeader, hmacSignature other text time)] := by
    refine ⟨.cons ⟨rfl, ?_⟩ .nil, ?_⟩
    · rw [if_pos rfl]
      exact ⟨length_hmacSignature secret body time, length_hmacSignature other text time⟩
    · simp only [List.all_cons, List.all_nil, hmacSignature, Base64.encodeUrl_value]
  exact hfirst.append hrest

end Signing

/-- Requests that differ in the value of the signature at most. -/
structure Request.Alike (q r : Request) : Prop where
  method : r.method = q.method
  url : r.url = q.url
  body : r.body = q.body
  headers : List.Forall₂ Headers.Match q.headers r.headers

structure Draft.Alike (d e : Draft) : Prop where
  method : e.method = d.method
  address : e.address = d.address
  body : e.body = d.body
  headers : d.headers.Alike e.headers

/-- Both can be sent or neither. -/
theorem Draft.Alike.request {d e : Draft} (h : d.Alike e) :
    Option.Rel Request.Alike d.request? e.request? := by
  simp only [Draft.request?, h.address, h.method, h.body, h.headers.values]
  cases Url.parse? d.address with
  | none => exact .none
  | some url =>
    change Option.Rel _ (if _ then _ else _) (if _ then _ else _)
    split
    · exact .some ⟨rfl, rfl, rfl, (url.basic_alike.append h.headers).pairs⟩
    · exact .none

/-- Wires that go on alike, on which requests have come in that are related pairwise since some that
are the same. -/
structure Wire.Paired (R : Request → Request → Prop) (base : List Request) (v w : Wire) : Prop where
  reachable : w.reachable = v.reachable
  answers : w.answers = v.answers
  otherwise : w.otherwise = v.otherwise
  received : ∃ since others, v.received = base ++ since ∧ w.received = base ++ others ∧
    List.Forall₂ R since others

theorem Wire.Paired.refl {R : Request → Request → Prop} (w : Wire) :
    Wire.Paired R w.received w w :=
  ⟨rfl, rfl, rfl, [], [], (List.append_nil _).symm, (List.append_nil _).symm, .nil⟩

section
variable {R : Request → Request → Prop} {base : List Request} {v w : Wire}

theorem Wire.Paired.deliver (h : Wire.Paired R base v w) {q r : Request} (hr : R q r) :
    (w.deliver r).1 = (v.deliver q).1 ∧ Wire.Paired R base (v.deliver q).2 (w.deliver r).2 := by
  obtain ⟨_, _, _, _⟩ := v
  obtain ⟨reachable, answers, otherwise, received⟩ := w
  obtain ⟨rfl, rfl, rfl, since, others, rfl, rfl, hsince⟩ := id h
  cases reachable with
  | false => exact ⟨rfl, h⟩
  | true =>
    have hmore : List.Forall₂ R (since ++ [q]) (others ++ [r]) :=
      List.rel_append hsince (.cons hr .nil)
    cases answers with
    | nil => exact ⟨rfl, rfl, rfl, rfl, _, _, List.append_assoc .., List.append_assoc .., hmore⟩
    | cons answer rest =>
      exact ⟨rfl, rfl, rfl, rfl, _, _, List.append_assoc .., List.append_assoc .., hmore⟩

namespace Client

theorem exchange_paired {d e : Draft} (hd : Option.Rel R d.request? e.request?)
    (hw : Wire.Paired R base v w) :
    (exchange e w).1 = (exchange d v).1 ∧ Wire.Paired R base (exchange d v).2 (exchange e w).2 := by
  unfold exchange
  generalize d.request? = q at hd ⊢
  generalize e.request? = r at hd ⊢
  cases hd with
  | none => exact ⟨rfl, hw⟩
  | some hr => exact hw.deliver hr

/-- Whether the platform is up is asked without credentials of a session. -/
theorem health_paired (c : Client) (hd : Option.Rel R c.healthDraft.request? c.healthDraft.request?)
    (hw : Wire.Paired R base v w) :
    (c.health w).1 = (c.health v).1 ∧ Wire.Paired R base (c.health v).2 (c.health w).2 := by
  obtain ⟨hreply, hwire⟩ := exchange_paired hd hw
  unfold health
  generalize exchange c.healthDraft v = a at hreply hwire ⊢
  generalize exchange c.healthDraft w = b at hreply hwire ⊢
  obtain ⟨reply, v'⟩ := a
  obtain ⟨_, w'⟩ := b
  cases hreply
  cases reply with
  | none => exact ⟨rfl, hwire⟩
  | some reply => exact ⟨rfl, hwire⟩

theorem healthDraft_alike (c : Client) : c.healthDraft.Alike c.healthDraft :=
  ⟨rfl, rfl, rfl, .refl (List.forall_mem_nil _)⟩

variable {c : Client} {s t : Session}

/-- What a policy makes of a request that cannot be signed is alike. -/
theorem unsigned_alike (policy : UnsignedPolicy) : ResultsAlike Headers.Alike
    (match policy with
      | .failOpen => .ok []
      | .failClosed => .error CallError.missingSigningMaterial)
    (match policy with
      | .failOpen => .ok []
      | .failClosed => .error .missingSigningMaterial) := by
  cases policy with
  | failOpen => exact .ok (.refl (List.forall_mem_nil _))
  | failClosed => exact .error _

/-- Whether there is a signature, and why there is none, depends neither on the secret nor on the
body. -/
theorem signature_alike (hc : c.signer = .hmac) (h : s.Alike t) (now : Nat) (body text : String) :
    ResultsAlike Headers.Alike (c.signature now s body) (c.signature now t text) := by
  obtain ⟨_, _, secret⟩ := s
  obtain ⟨userId, token, other⟩ := t
  obtain ⟨rfl, rfl, hsecret⟩ := h
  simp only [signature, Signing.headers, hc]
  cases secret with
  | none =>
    cases other with
    | none => exact unsigned_alike c.policy
    | some _ => cases hsecret
  | some secret =>
    cases other with
    | none => cases hsecret
    | some other =>
      cases userId with
      | none => exact unsigned_alike c.policy
      | some userId => exact .ok (Signing.signed_alike ..)

/-- What a call carries besides its signature is no signature. -/
theorem unsigned_headers_alike (s : Session) :
    Headers.Alike (contentType :: bearer s) (contentType :: bearer s) := by
  refine .refl fun g hg => ?_
  rcases List.mem_cons.mp hg with rfl | hg
  · decide
  · obtain ⟨token, _, rfl⟩ := List.mem_map.mp hg
    simp [Signing.signatureHeader]

theorem draft_alike (hc : c.signer = .hmac) (h : s.Alike t) (now : Nat) (call : Call α) :
    ResultsAlike Draft.Alike (c.draft now s call) (c.draft now t call) := by
  have hdue : ResultsAlike Headers.Alike (c.dueSignature now s call)
      (c.dueSignature now t call) := by
    unfold dueSignature
    split
    · exact signature_alike hc h now ..
    · exact .ok (.refl (List.forall_mem_nil _))
  have hplain : c.plainDraft t call = c.plainDraft s call := by
    simp only [plainDraft, bearer, h.token]
  rw [draft_eq, draft_eq, hplain]
  generalize c.dueSignature now s call = x at hdue ⊢
  generalize c.dueSignature now t call = y at hdue ⊢
  cases hdue with
  | ok hs => exact .ok ⟨rfl, rfl, rfl, (unsigned_headers_alike s).append hs⟩
  | error e => exact .error e

/-- Calls whose drafts are related and that read replies in one way come to the same. -/
theorem run_paired {call other : Call α} {now : Nat}
    (hd : ResultsAlike (fun d e => Option.Rel R d.request? e.request?) (c.draft now s call)
      (c.draft now t other)) (hread : ∀ reply, other.outcome reply = call.outcome reply)
    (hw : Wire.Paired R base v w) : (c.run now t other w).1 = (c.run now s call v).1 ∧
      Wire.Paired R base (c.run now s call v).2 (c.run now t other w).2 := by
  unfold run
  generalize c.draft now s call = d at hd ⊢
  generalize c.draft now t other = e at hd ⊢
  cases hd with
  | error e => exact ⟨rfl, hw⟩
  | @ok d e hd =>
    dsimp only
    obtain ⟨hreply, hwire⟩ := exchange_paired hd hw
    generalize exchange d v = a at hreply hwire ⊢
    generalize exchange e w = b at hreply hwire ⊢
    obtain ⟨reply, v'⟩ := a
    obtain ⟨_, w'⟩ := b
    cases hreply
    cases reply with
    | none => exact ⟨rfl, hwire⟩
    | some reply => exact ⟨hread reply, hwire⟩

theorem run_alike (hc : c.signer = .hmac) (h : s.Alike t) (now : Nat) (call : Call α)
    (hw : Wire.Paired Request.Alike base v w) : (c.run now t call w).1 = (c.run now s call v).1 ∧
      Wire.Paired Request.Alike base (c.run now s call v).2 (c.run now t call w).2 :=
  run_paired ((draft_alike hc h now call).mono fun _ _ hd => hd.request) (fun _ => rfl) hw

/-- A call leaves the clock the same whichever secret there is. -/
theorem clockAfter_alike (c : Client) (h : s.Alike t) (clock : Clock) (call : Call α) :
    c.clockAfter clock t call = c.clockAfter clock s call := by
  unfold clockAfter Signing.readsClock
  rw [h.userId, h.secret]

end Client
end
end SignedConsole
