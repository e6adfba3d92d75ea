import SignedConsole.Proofs.AlikeRequests

namespace SignedConsole

/-- Headers of one name that differ in nothing, or are two signatures of one length. -/
structure Headers.Similar (g h : String × String) : Prop where
  name : h.1 = g.1
  value : g.1 ≠ Signing.signatureHeader → h.2 = g.2
  length : h.2.length = g.2.length

theorem Headers.Similar.refl (g : String × String) : Similar g g := ⟨rfl, fun _ => rfl, rfl⟩

theorem Headers.Match.similar {g h : String × String} (hm : Match g h) : Similar g h := by
  obtain ⟨hname, hvalue⟩ := hm
  split at hvalue
  · rename_i hsignature
    exact ⟨hname, fun hne => absurd hsignature hne, hvalue.2.trans hvalue.1.symm⟩
  · exact ⟨hname, fun _ => hvalue, congrArg String.length hvalue⟩

/-- Requests that differ in their bodies and their signatures at most. -/
structure Request.Similar (q r : Request) : Prop where
  method : r.method = q.method
  url : r.url = q.url
  body : r.body.isSome = q.body.isSome
  headers : List.Forall₂ Headers.Similar q.headers r.headers

theorem Request.Similar.refl (q : Request) : q.Similar q :=
  ⟨rfl, rfl, rfl, List.forall₂_same.mpr fun g _ => .refl g⟩

structure Draft.Similar (d e : Draft) : Prop where
  method : e.method = d.method
  address : e.address = d.address
  body : e.body.isSome = d.body.isSome
  headers : d.headers.Alike e.headers

theorem Draft.Similar.request {d e : Draft} (h : d.Similar e) :
    Option.Rel Request.Similar d.request? e.request? := by
  simp only [Draft.request?, h.address, h.method, h.headers.values]
  cases Url.parse? d.address with
  | none => exact .none
  | some url =>
    change Option.Rel _ (if _ then _ else _) (if _ then _ else _)
    split
    · exact .some ⟨rfl, rfl, h.body,
        (url.basic_alike.append h.headers).pairs.imp fun _ _ hm => hm.similar⟩
    · exact .none

/-- Calls that differ in the texts that they send along at most. -/
structure Call.Similar (call other : Call α) : Prop where
  method : other.method = call.method
  path : other.path = call.path
  body : other.body.isSome = call.body.isSome
  isSensitive : other.isSensitive = call.isSensitive
  read : other.read = call.read

theorem Call.Similar.refl (call : Call α) : call.Similar call := ⟨rfl, rfl, rfl, rfl, rfl⟩

theorem Call.Similar.outcome {call other : Call α} (h : call.Similar other) (reply : Reply) :
    other.outcome reply = call.outcome reply := by
  simp only [Call.outcome, h.read]

namespace Client

variable {c : Client} {call other : Call α}

theorem draft_similar (hc : c.signer = .hmac) (h : call.Similar other) (now : Nat) (s : Session) :
    ResultsAlike Draft.Similar (c.draft now s call) (c.draft now s other) := by
  have hdue : ResultsAlike Headers.Alike (c.dueSignature now s call)
      (c.dueSignature now s other) := by
    unfold dueSignature
    rw [h.isSensitive]
    split
    · exact signature_alike hc ⟨rfl, rfl, rfl⟩ now ..
    · exact .ok (.refl (List.forall_mem_nil _))
  rw [draft_eq, draft_eq]
  generalize c.dueSignature now s call = x at hdue ⊢
  generalize c.dueSignature now s other = y at hdue ⊢
  cases hdue with
  | ok hs =>
    have hbody : (other.body.map Json.print).isSome = (call.body.map Json.print).isSome := by
      rw [Option.isSome_map, Option.isSome_map, h.body]
    exact .ok ⟨h.method, congrArg (c.baseUrl ++ ·) h.path, hbody,
      (unsigned_headers_alike s).append hs⟩
  | error e => exact .error e

/-- Calls that are similar come to the same, and their requests are similar. -/
theorem run_similar {base : List Request} {v w : Wire} (hc : c.signer = .hmac)
    (h : call.Similar other) (now : Nat) (s : Session)
    (hw : Wire.Paired Request.Similar base v w) :
    (c.run now s other w).1 = (c.run now s call v).1 ∧
      Wire.Paired Request.Similar base (c.run now s call v).2 (c.run now s other w).2 :=
  run_paired ((draft_similar hc h now s).mono fun _ _ hd => hd.request) h.outcome hw

/-- Calls that are similar leave the clock the same. -/
theorem clockAfter_similar (h : call.Similar other) (clock : Clock) (s : Session) :
    c.clockAfter clock s other = c.clockAfter clock s call := by
  simp only [clockAfter, h.isSensitive]

end Client
end SignedConsole
