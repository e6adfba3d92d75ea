import SignedConsole.Credential.Signing
import SignedConsole.Proofs.Transmission

namespace SignedConsole

/-- Whether a session has what a scheme signs with. -/
def Session.holdsMaterial (s : Session) : Scheme → Bool
  | .hmac => s.secret.isSome && s.userId.isSome
  | .rsa => s.secret.isSome

theorem mapError_eq_error {f : ε → ε'} {x : Except ε α} {e : ε'}
    (h : x.mapError f = .error e) : ∃ cause, x = .error cause ∧ e = f cause := by
  cases x with
  | ok a => cases h
  | error cause => exact ⟨cause, rfl, (Except.error.inj h).symm⟩

theorem Pem.decode_failure {pem : String} {e : CredentialError} (h : decode pem = .error e) :
    e.isSigningFailure = true := by
  unfold decode at h
  split at h
  · cases h
    rfl
  · obtain ⟨cause, _, rfl⟩ := mapError_eq_error h
    rfl

theorem Rsa.PrivateKey.ofPem_failure {pem : String} {e : CredentialError}
    (h : ofPem pem = .error e) : e.isSigningFailure = true := by
  unfold ofPem at h
  cases hd : Pem.decode pem with
  | error cause =>
    rw [hd] at h
    cases h
    exact Pem.decode_failure hd
  | ok der =>
    rw [hd] at h
    obtain ⟨cause, _, rfl⟩ := mapError_eq_error h
    rfl

theorem Rsa.signature_failure {pem body : String} {e : CredentialError}
    (h : signature pem body = .error e) : e.isSigningFailure = true := by
  simp only [signature, bind, Except.bind] at h
  split at h
  · rename_i hk
    cases h
    exact PrivateKey.ofPem_failure hk
  · split at h
    · cases h
    · cases h
      rfl

/-- A header of a signature is no authorization. -/
theorem Headers.own_name {h : String × String} (ho : isOwn h = true) :
    (Text.lowerAscii h.1 == "authorization") = false := by
  rw [beq_eq_false_iff_ne]
  intro hn
  rw [isOwn, hn] at ho
  revert ho
  decide

theorem Headers.no_authorization_of_own {headers : Headers} (h : headers.own = headers) :
    headers.authorization = [] := by
  rw [authorization, List.filter_eq_nil_iff]
  intro header hm
  rw [← h] at hm
  rw [own_name (List.mem_filter.mp hm).2]
  exact Bool.false_ne_true

namespace Signing

/-- Everything that signing can come to: no material, the three headers of a shared secret, or the
one header of a private key unless the key is no good. -/
theorem headers_cases (scheme : Scheme) (now : Nat) (body : String) (session : Session) :
    (session.holdsMaterial scheme = false ∧ headers scheme now body session = .ok none) ∨
    (∃ secret userId, scheme = .hmac ∧ session.secret = some secret ∧
      session.userId = some userId ∧ headers scheme now body session =
        .ok (some [(signatureHeader, hmacSignature secret.text body (timestamp now)),
          (userIdHeader, userId), (timestampHeader, timestamp now)])) ∨
    (∃ secret, scheme = .rsa ∧ session.secret = some secret ∧
      headers scheme now body session =
        (Rsa.signature secret.text body).map fun s => some [(signatureHeader, s)]) := by
  cases scheme with
  | hmac =>
    cases hs : session.secret with
    | none => exact Or.inl ⟨by simp [Session.holdsMaterial, hs], by simp [headers, hs]⟩
    | some secret =>
      cases hu : session.userId with
      | none => exact Or.inl ⟨by simp [Session.holdsMaterial, hu], by simp [headers, hs, hu]⟩
      | some userId =>
        exact Or.inr (Or.inl ⟨secret, userId, rfl, rfl, rfl, by simp [headers, hs, hu]⟩)
  | rsa =>
    cases hs : session.secret with
    | none => exact Or.inl ⟨by simp [Session.holdsMaterial, hs], by simp [headers, hs]⟩
    | some secret =>
      refine Or.inr (Or.inr ⟨secret, rfl, rfl, ?_⟩)
      simp only [headers, hs]
      cases Rsa.signature secret.text body <;> rfl

theorem headers_none_iff {scheme : Scheme} {now : Nat} {body : String} {session : Session} :
    headers scheme now body session = .ok none ↔ session.holdsMaterial scheme = false := by
  rcases headers_cases scheme now body session with
    ⟨hm, h⟩ | ⟨secret, userId, rfl, hs, hu, h⟩ | ⟨secret, rfl, hs, h⟩
  · simp [hm, h]
  · simp [Session.holdsMaterial, hs, hu, h]
  · rw [h]
    cases Rsa.signature secret.text body <;> simp [Except.map, Session.holdsMaterial, hs]

/-- A signature fails only for its key, never for the storage or the record of a session. -/
theorem headers_failure {scheme : Scheme} {now : Nat} {body : String} {session : Session}
    {e : CredentialError} (h : headers scheme now body session = .error e) :
    e.isSigningFailure = true := by
  rcases headers_cases scheme now body session with
    ⟨_, hc⟩ | ⟨_, _, _, _, _, hc⟩ | ⟨secret, _, _, hc⟩
  · rw [hc] at h
    cases h
  · rw [hc] at h
    cases h
  · rw [hc] at h
    cases hs : Rsa.signature secret.text body with
    | ok s =>
      rw [hs] at h
      cases h
    | error cause =>
      rw [hs] at h
      cases h
      exact Rsa.signature_failure hs

@[simp] theorem signatureHeader_own (v : String) :
    Headers.isOwn (signatureHeader, v) = true := by
  have h : "x-combinator-".toList.isPrefixOf (Text.lowerAscii signatureHeader).toList := by decide
  exact h

@[simp] theorem userIdHeader_own (v : String) : Headers.isOwn (userIdHeader, v) = true := by
  have h : "x-combinator-".toList.isPrefixOf (Text.lowerAscii userIdHeader).toList := by decide
  exact h

@[simp] theorem timestampHeader_own (v : String) :
    Headers.isOwn (timestampHeader, v) = true := by
  have h : "x-combinator-".toList.isPrefixOf (Text.lowerAscii timestampHeader).toList := by decide
  exact h

/-- A signature has the signature header, and no header that is not its own. -/
theorem headers_own {scheme : Scheme} {now : Nat} {body : String} {session : Session} {hs : Headers}
    (h : headers scheme now body session = .ok (some hs)) :
    hs.own = hs ∧ ∃ s, (signatureHeader, s) ∈ hs := by
  rcases headers_cases scheme now body session with
    ⟨_, hc⟩ | ⟨_, _, _, _, _, hc⟩ | ⟨secret, _, _, hc⟩
  · rw [hc] at h
    cases h
  · rw [hc] at h
    cases h
    exact ⟨by simp [Headers.own], _, List.mem_cons_self⟩
  · rw [hc] at h
    cases hs : Rsa.signature secret.text body with
    | error cause =>
      rw [hs] at h
      cases h
    | ok s =>
      rw [hs] at h
      cases h
      exact ⟨by simp [Headers.own], _, List.mem_cons_self⟩

end Signing

namespace Client

/-- A client hands on what signing comes to; where there is no material the policy decides. -/
theorem signature_cases (c : Client) (now : Nat) (session : Session) (body : String) :
    (∃ e, Signing.headers c.signer now body session = .error e ∧
      c.signature now session body = .error (.signing e)) ∨
    (∃ hs, Signing.headers c.signer now body session = .ok (some hs) ∧
      c.signature now session body = .ok hs) ∨
    (session.holdsMaterial c.signer = false ∧ c.policy = .failOpen ∧
      c.signature now session body = .ok []) ∨
    (session.holdsMaterial c.signer = false ∧ c.policy = .failClosed ∧
      c.signature now session body = .error .missingSigningMaterial) := by
  unfold signature
  cases h : Signing.headers c.signer now body session with
  | error e => exact Or.inl ⟨e, rfl, rfl⟩
  | ok found =>
    cases found with
    | some hs => exact Or.inr (Or.inl ⟨hs, rfl, rfl⟩)
    | none =>
      have hm := Signing.headers_none_iff.mp h
      cases hp : c.policy with
      | failOpen => exact Or.inr (Or.inr (Or.inl ⟨hm, rfl, rfl⟩))
      | failClosed => exact Or.inr (Or.inr (Or.inr ⟨hm, rfl, rfl⟩))

theorem plain_headers_foreign (session : Session) :
    Headers.own (contentType :: bearer session) = [] := by
  have hc : Headers.isOwn contentType = false := by decide
  have hb : ∀ t, Headers.isOwn ("authorization", t) = false := by
    intro t
    have h : "x-combinator-".toList.isPrefixOf (Text.lowerAscii "authorization").toList = false := by
      decide
    exact h
  unfold bearer
  cases session.token <;> simp [Headers.own, hc, hb]

theorem plain_headers_authorization (session : Session) :
    Headers.authorization (contentType :: bearer session) = bearer session := by
  have hname : Text.lowerAscii "authorization" = "authorization" := by decide
  have htype : (Text.lowerAscii contentType.1 == "authorization") = false := by decide
  unfold bearer
  cases session.token <;> simp [Headers.authorization, htype, hname]

end Client
end SignedConsole
