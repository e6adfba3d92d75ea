import Mathlib.Logic.Function.Iterate
import SignedConsole.Proofs.AccountOutcomes
import SignedConsole.Proofs.BaseCredentials
import SignedConsole.Proofs.ConsoleProcess
import SignedConsole.Proofs.Rounds
import SignedConsole.Proofs.SessionMirror
import SignedConsole.Proofs.SignatureHeaders

namespace SignedConsole

/-- A request that says who asks by the name in the base of a client and by the token of a session,
if there is one, and carries no signature where there is no secret. -/
structure Request.Bears (request : Request) (c : Client) (session : Session) : Prop where
  token : request.headers.authorization = c.basic ++ Client.bearer session
  unsigned : session.secret = none → request.headers.own = []

namespace Client

/-- The headers that a call is due to carry sign it, and there is none without a secret. -/
theorem dueSignature_own {c : Client} {now : Nat} {session : Session} {call : Call α}
    {signature : Headers} (h : c.dueSignature now session call = .ok signature) :
    signature.own = signature ∧ (session.secret = none → signature = []) := by
  unfold dueSignature at h
  split at h
  · rcases c.signature_cases now session call.payload with
      ⟨e, _, hs⟩ | ⟨found, hh, hs⟩ | ⟨_, _, hs⟩ | ⟨_, _, hs⟩
    · cases hs.symm.trans h
    · cases hs.symm.trans h
      refine ⟨(Signing.headers_own hh).1, fun hnone => ?_⟩
      have hm : session.holdsMaterial c.signer = false := by
        cases c.signer <;> simp [Session.holdsMaterial, hnone]
      cases hh.symm.trans (Signing.headers_none_iff.mpr hm)
    · cases hs.symm.trans h
      exact ⟨rfl, fun _ => rfl⟩
    · cases hs.symm.trans h
  · cases h
    exact ⟨rfl, fun _ => rfl⟩

/-- A call is made with what the session has. -/
theorem run_bears {c : Client} {now : Nat} {session : Session} {call : Call α} {w : Wire}
    {request : Request} (h : request ∈ (c.run now session call w).2.receivedSince w) :
    request.Bears c session := by
  have hbasic := run_basic h
  cases hd : c.draft now session call with
  | error e =>
    rw [receivedSince_error hd] at h
    cases h
  | ok d =>
    rw [receivedSince_draft hd] at h
    obtain ⟨signature, hs, rfl⟩ := draft_ok hd
    obtain ⟨hown, hunsigned⟩ := dueSignature_own hs
    have hheaders : request.headers =
        request.url.basic ++ (contentType :: bearer session ++ signature) :=
      (Draft.request_fields (mem_sentBy h)).2.2.1
    constructor
    · rw [hheaders, Headers.authorization_append, Headers.authorization_append,
        Url.basic_authorization, hbasic, plain_headers_authorization,
        Headers.no_authorization_of_own hown, List.append_nil]
    · intro hnone
      rw [hheaders, hunsigned hnone, List.append_nil, Headers.own_append, Url.basic_own]
      exact plain_headers_foreign session

end Client

/-- All that has been sent since carries what the session has, the question for health apart. -/
structure Desk.SentAs (d d' : Desk σ) : Prop where
  client : d'.client = d.client
  vault : d'.vault = d.vault
  sent : ∃ sent, d'.wire.received = d.wire.received ++ sent ∧ ∀ request ∈ sent,
    d.client.healthDraft.request? = some request ∨ request.Bears d.client d.vault.session

theorem Desk.SentAs.of_quiet {d d' : Desk σ} (hc : d'.client = d.client) (hv : d'.vault = d.vault)
    (hw : d'.wire = d.wire) : d.SentAs d' :=
  ⟨hc, hv, [], by rw [hw, List.append_nil], List.forall_mem_nil _⟩

instance : Lasting (@Desk.SentAs σ) where
  refl _ := .of_quiet rfl rfl rfl
  trans := by
    rintro d d' d'' ⟨hc, hv, sent, hs, hall⟩ ⟨hc', hv', later, hl, hlater⟩
    rw [hc, hv] at hlater
    refine ⟨hc'.trans hc, hv'.trans hv, sent ++ later, ?_, ?_⟩
    · rw [hl, hs, List.append_assoc]
    · intro request hm
      rcases List.mem_append.mp hm with hm | hm
      · exact hall request hm
      · exact hlater request hm
  recorded _ _ _ := .of_quiet rfl rfl rfl
  read _ _ _ _ _ _ := .of_quiet rfl rfl rfl
  called d c := ⟨rfl, rfl, _, d.client.run_received d.now.shown d.vault.session c d.wire,
    fun _ h => Or.inr (Client.run_bears h)⟩
  probed d := by
    refine ⟨rfl, rfl, Client.sentBy d.client.healthDraft d.wire, ?_, fun _ h =>
      Or.inl (Client.mem_sentBy h)⟩
    rw [Client.health_wire, Client.exchange_received]

/-- The first words of the commands about resources. -/
def resourceWords : List String := ["rdb", "kv", "worker", "domain"]

/-- A guest is told to log in, and nothing else happens. -/
theorem Console.dispatch_guest [Host σ] {d : Desk σ} (h : d.vault.session.token = none)
    {line word : String} {args : List String} (hwords : Text.words line = word :: args)
    (hword : Text.lower word ∈ resourceWords) : d.perform (dispatch line) =
      (.goOn, { d with events := d.events ++ [.printed (.error "Please login first")] }) := by
  rw [dispatch, Command.ofLine, hwords, Command.ofWords]
  simp only [resourceWords, List.mem_cons, List.not_mem_nil, or_false] at hword
  rcases hword with hword | hword | hword | hword <;> simp only [hword, execute] <;>
    rw [Desk.perform_bind, authenticated_guest h] <;> rfl

/-- Storage from which nothing is read any more once a removal has succeeded. -/
class Storage.Erases (σ : Type) [Storage σ] : Prop where
  erased (s : σ) : (Storage.remove credentialsKey s).1 = .ok () → ∀ text,
    (Storage.get credentialsKey (Storage.remove credentialsKey s).2).1 ≠ .ok (some text)

instance : Storage.Erases Memory where
  erased m _ text h := by
    have hnone := m.get_erase credentialsKey
    cases hnone.symm.trans (Except.ok.inj h)

instance [Storage σ] [Storage.Erases σ] : Storage.Erases (Refusing σ) where
  erased s h text := by
    obtain ⟨inner, get, set, remove⟩ := s
    cases remove with
    | true => cases h
    | false =>
      cases get with
      | true => exact nofun
      | false => exact Storage.Erases.erased inner h text

instance [Storage σ] [Storage.Erases σ] : Storage.Erases (Beside σ) where
  erased b h text := Storage.Erases.erased b.storage h text

theorem FileStorage.get_eq (s : FileStorage) (key : String) :
    Storage.get key s = (s.read key, s) := rfl

theorem FileStorage.remove_eq (s : FileStorage) (key : String) :
    Storage.remove key s = s.erase key := rfl

instance : Storage.Erases FileStorage where
  erased s h text := by
    rw [FileStorage.remove_eq] at h ⊢
    have hread := FileStorage.erased_read (by decide) (Prod.ext h rfl)
    rw [FileStorage.get_eq, hread]
    nofun

namespace Vault
variable [Storage σ] [Storage.Erases σ]

/-- A removal that succeeds leaves no secret for anyone. -/
theorem clear_no_secret {v : Vault σ} (h : (Storage.remove credentialsKey v.storage).1 = .ok ())
    (userId : String) : (v.clear.storedSecret userId).1 = none := by
  have hget := Storage.Erases.erased v.storage h
  have hread : v.clear.readRecord.1 = none := by
    rw [readRecord_answer]
    change Record.ofStored? v.scheme (Storage.get credentialsKey
      (Storage.remove credentialsKey v.storage).2).1.toOption.join = none
    rcases hg : (Storage.get credentialsKey (Storage.remove credentialsKey v.storage).2).1
      with _ | _ | text
    · rfl
    · rfl
    · exact absurd hg (hget text)
  unfold storedSecret
  rw [show v.clear.readRecord = (none, v.clear.readRecord.2) from Prod.ext hread rfl]
  rfl

end Vault

/-- The points whose step changes the session. -/
def Point.Moves : Point → Prop
  | .start | .keep .. | .forget => True
  | .prompt | .search _ | .entry _ | .stopped => False

/-- The credentials of a registration or a login that has succeeded are about to be kept. -/
def Point.Keeps : Point → Prop
  | .keep .. => True
  | .start | .prompt | .search _ | .entry _ | .forget | .stopped => False

namespace Process
variable [Host σ]

/-- The requests that a step sends. -/
def sent (p : Process σ) : List Request := p.advance.desk.wire.receivedSince p.desk.wire

/-- The line to log out is the next to be read at the prompt. -/
def LogsOut (p : Process σ) : Prop :=
  p.point = .prompt ∧ ∃ line rest, p.desk.typed = line :: rest ∧
    Command.ofLine (Text.trim line) = .logout

/-- What holds of a step: it sends only for the session that it has, and leaves it as it is then. -/
structure Faithful (p : Process σ) : Prop where
  client : p.advance.desk.client = p.desk.client
  received : p.advance.desk.wire.received = p.desk.wire.received ++ p.sent
  vault : p.sent ≠ [] → p.advance.desk.vault = p.desk.vault
  bears : ∀ request ∈ p.sent, p.desk.client.healthDraft.request? = some request ∨
    request.Bears p.desk.client p.desk.vault.session

theorem faithful_of_sentAs {p : Process σ} (h : p.desk.SentAs p.advance.desk) : p.Faithful := by
  obtain ⟨hc, hv, sent, hs, hall⟩ := h
  have hsent : p.sent = sent := by simp [Process.sent, Wire.receivedSince, hs]
  exact ⟨hc, hsent ▸ hs, fun _ => hv, hsent ▸ hall⟩

theorem faithful_of_quiet {p : Process σ} (hc : p.advance.desk.client = p.desk.client)
    (hw : p.advance.desk.wire = p.desk.wire) : p.Faithful := by
  have hsent : p.sent = [] := by simp [Process.sent, Wire.receivedSince, hw]
  refine ⟨hc, by rw [hw, hsent, List.append_nil], fun h => absurd hsent h, ?_⟩
  rw [hsent]
  exact List.forall_mem_nil _

theorem search_desk (d : Desk σ) (r : Grant) :
    (advance ⟨.search r, d⟩).desk = (d.perform (Account.seekSecret r.userId)).2 := by
  rw [search_eq]
  rcases d.perform (Account.seekSecret r.userId) with ⟨secret | _, d'⟩ <;> rfl

theorem faithful (p : Process σ) : p.Faithful := by
  obtain ⟨point, d⟩ := p
  cases point with
  | prompt => exact faithful_of_sentAs ((Point.prompt_keeps (R := Desk.SentAs)).step d)
  | entry r => exact faithful_of_sentAs ((Point.entry_keeps (R := Desk.SentAs) r).step d)
  | search r => exact faithful_of_quiet (by rw [search_desk]; rfl) (by rw [search_desk]; rfl)
  | start => exact faithful_of_quiet rfl rfl
  | keep userId token secret lines => exact faithful_of_quiet rfl rfl
  | forget => exact faithful_of_quiet rfl rfl
  | stopped => exact faithful_of_quiet rfl rfl

/-- A step away from the points that change it leaves the vault as it is. -/
theorem advance_vault [Storage.Still σ] {p : Process σ} (h : ¬ p.point.Moves) :
    p.advance.desk.vault = p.desk.vault := by
  obtain ⟨point, d⟩ := p
  cases point with
  | prompt => exact (Point.prompt_keeps (R := Desk.SameVault)).step d
  | entry r => exact (Point.entry_keeps (R := Desk.SameVault) r).step d
  | search r =>
    rw [search_desk]
    exact Vault.storedSecret_same r.userId d.vault
  | stopped => rfl
  | start | keep _ _ _ _ | forget => exact absurd trivial h

/-- No step leads back to the start. -/
theorem advance_started (p : Process σ) : p.advance.point ≠ .start := by
  obtain ⟨point, d⟩ := p
  cases point with
  | prompt =>
    change (d.perform (Point.step .prompt)).1.1 ≠ .start
    rcases Point.prompt_result d with h | ⟨c, typed, events, h⟩
    · rw [h]
      nofun
    · rw [h]
      exact Point.ofCommand_started c _
  | entry r =>
    change (d.perform (Point.step (.entry r))).1.1 ≠ .start
    rcases Point.entry_result d r with h | ⟨secret, _, _, h⟩
    · rw [h]
      nofun
    · rw [h]
      nofun
  | search r =>
    rw [search_eq]
    rcases d.perform (Account.seekSecret r.userId) with ⟨secret | _, d'⟩ <;> nofun
  | start | keep _ _ _ _ | forget | stopped => nofun

theorem LogsOut.advance {p : Process σ} (h : p.LogsOut) : p.advance.point = .forget := by
  obtain ⟨point, d⟩ := p
  obtain ⟨rfl, line, rest, ht, hc⟩ := h
  change (d.perform (Point.step .prompt)).1.1 = .forget
  rw [Point.prompt_line ht, hc]
  rfl

/-- A process whose user has logged out. -/
structure Guest (p : Process σ) : Prop where
  started : p.point ≠ .start
  session : p.desk.vault.session = .anonymous

/-- A process to whom the storage gives no secret. -/
def Secretless (p : Process σ) : Prop :=
  ∀ userId, (p.desk.vault.storedSecret userId).1 = none

/-- What is to be forgotten is removed from the storage. -/
def Removes (p : Process σ) : Prop :=
  p.point = .forget → (Storage.remove credentialsKey p.desk.vault.storage).1 = .ok ()

theorem forget_vault {p : Process σ} (h : p.point = .forget) :
    p.advance.desk.vault = p.desk.vault.clear := by
  obtain ⟨point, d⟩ := p
  cases h
  rfl

theorem guest_after_forget {p : Process σ} (h : p.point = .forget) : p.advance.Guest :=
  ⟨p.advance_started, by rw [forget_vault h]; rfl⟩

theorem secretless_after_forget [Storage.Erases σ] {p : Process σ} (h : p.point = .forget)
    (hr : p.Removes) : p.advance.Secretless := by
  unfold Secretless
  rw [forget_vault h]
  exact Vault.clear_no_secret (hr h)

/-- Where nothing is kept, a step of a guest forgets once more or leaves the vault as it is. -/
theorem Guest.vault_cases [Storage.Still σ] {p : Process σ} (h : p.Guest) (hk : ¬ p.point.Keeps) :
    p.point = .forget ∨ p.advance.desk.vault = p.desk.vault := by
  by_cases hf : p.point = .forget
  · exact Or.inl hf
  · refine Or.inr (advance_vault ?_)
    have hs := h.started
    cases hp : p.point <;> simp_all [Point.Moves, Point.Keeps]

theorem Guest.advance [Storage.Still σ] {p : Process σ} (h : p.Guest) (hk : ¬ p.point.Keeps) :
    p.advance.Guest := by
  rcases h.vault_cases hk with hf | hv
  · exact guest_after_forget hf
  · exact ⟨p.advance_started, by rw [hv]; exact h.session⟩

theorem Guest.secretless [Storage.Still σ] [Storage.Erases σ] {p : Process σ} (h : p.Guest)
    (hk : ¬ p.point.Keeps) (hs : p.Secretless) (hr : p.Removes) : p.advance.Secretless := by
  rcases h.vault_cases hk with hf | hv
  · exact secretless_after_forget hf hr
  · unfold Secretless
    rw [hv]
    exact hs

/-- A guest's requests carry no credentials but those that the base names. -/
theorem Guest.sent {p : Process σ} (h : p.Guest) : ∀ request ∈ p.sent,
    request.headers.authorization = p.desk.client.basic ∧ request.headers.own = [] := by
  intro request hm
  rcases p.faithful.bears request hm with hprobe | hbears
  · rw [Client.health_basic hprobe]
    exact ⟨Client.basic_authorization _, Client.basic_own _⟩
  · refine ⟨?_, hbears.unsigned ?_⟩
    · rw [hbears.token, h.session]
      exact List.append_nil _
    · rw [h.session]
      rfl

/-- A process after that many steps. -/
def after (p : Process σ) (n : Nat) : Process σ := advance^[n] p

theorem after_succ (p : Process σ) (n : Nat) : p.after (n + 1) = (p.after n).advance :=
  Function.iterate_succ_apply' advance n p

theorem Reaches.steps {p q : Process σ} (h : Reaches p q) : ∃ n, p.after n = q := by
  induction h with
  | refl p => exact ⟨0, rfl⟩
  | @step p q _ ih =>
    obtain ⟨n, hn⟩ := ih
    exact ⟨n + 1, hn⟩

theorem after_received (p : Process σ) (n : Nat) : (p.after n).desk.wire.received =
    p.desk.wire.received ++ (List.range n).flatMap fun k => (p.after k).sent := by
  induction n with
  | zero => simp [after]
  | succ n ih =>
    rw [after_succ, (p.after n).faithful.received, ih, List.range_succ, List.flatMap_append,
      List.append_assoc, List.flatMap_singleton]

theorem after_client (p : Process σ) (n : Nat) : (p.after n).desk.client = p.desk.client := by
  induction n with
  | zero => rfl
  | succ n ih => rw [after_succ, (p.after n).faithful.client, ih]

/-- From a logout on a user stays a guest until credentials are kept again. -/
theorem guest_since_logout [Storage.Still σ] [Storage.Erases σ] (p : Process σ) {i n : Nat}
    (hout : (p.after i).LogsOut) (hkeep : ∀ k, i < k → k < i + 2 + n → ¬ (p.after k).point.Keeps) :
    (p.after (i + 2 + n)).Guest ∧ ((∀ k, i < k → k < i + 2 + n → (p.after k).Removes) →
      (p.after (i + 2 + n)).Secretless) := by
  induction n with
  | zero =>
    have hf : (p.after (i + 1)).point = .forget := by
      rw [after_succ]
      exact hout.advance
    rw [Nat.add_zero, after_succ]
    exact ⟨guest_after_forget hf, fun hr =>
      secretless_after_forget hf (hr (i + 1) (by omega) (by omega))⟩
  | succ n ih =>
    obtain ⟨hguest, hsecretless⟩ := ih fun k hi hn => hkeep k hi (by omega)
    have hk := hkeep (i + 2 + n) (by omega) (by omega)
    rw [← Nat.add_assoc, after_succ]
    refine ⟨hguest.advance hk, fun hr => ?_⟩
    exact hguest.secretless hk (hsecretless fun k hi hn => hr k hi (by omega))
      (hr _ (by omega) (by omega))

/-- What a run sends says who asks by the token of the session that is live in the step that sends
it, behind the name and the password that the base of all addresses may have in it. A guest's commands
about resources send nothing, and from a logout on nothing is sent or kept that belongs to the user,
until credentials are kept again. Replies are taken to be final ones, so requests are those that the
console issues, and a base whose host is not ASCII is no address. -/
theorem requests_carry_session [Storage.Still σ] [Storage.Erases σ] (d : Desk σ)
    (restored : Bool) :
    let p : Process σ := ⟨.prompt, d.greeted restored⟩
    let last := (d.perform (Console.run restored)).2
    (∃ n, p.after n = ⟨.stopped, last⟩ ∧ last.wire.received =
      d.wire.received ++ (List.range n).flatMap fun k => (p.after k).sent) ∧
    (d.client.basic = [] ↔
      ∀ base, Url.parse? (d.client.baseUrl ++ "/") = some base → base.user = none) ∧
    (∀ k, ∀ request ∈ (p.after k).sent,
      (p.after (k + 1)).desk.vault = (p.after k).desk.vault ∧
      (d.client.healthDraft.request? = some request ∧ request.headers = d.client.basic ∨
        request.headers.authorization = d.client.basic ++
          (p.after k).desk.vault.session.token.toList.map fun t =>
            ("authorization", "Bearer " ++ t))) ∧
    (∀ (guest : Desk σ) line word args, guest.vault.session.token = none →
      Text.words line = word :: args → Text.lower word ∈ ["rdb", "kv", "worker", "domain"] →
      guest.perform (Console.dispatch line) = (.goOn, { guest with
        events := guest.events ++ [.printed (.error "Please login first")] })) ∧
    (∀ i j, i + 1 < j → (p.after i).LogsOut →
      (∀ k, i < k → k < j → ¬ (p.after k).point.Keeps) →
      (∀ request ∈ (p.after j).sent,
        request.headers.authorization = d.client.basic ∧ request.headers.own = []) ∧
      ((∀ k, i < k → k < j → (p.after k).Removes) →
        ∀ userId, ((p.after j).desk.vault.storedSecret userId).1 = none)) := by
  intro p last
  refine ⟨?_, d.client.basic_eq_nil_iff, ?_,
    fun guest line word args ht hw hr => Console.dispatch_guest ht hw hr, ?_⟩
  · have hrun : Reaches p ⟨.stopped, last⟩ := loop_reaches (Nat.lt_succ_self _)
    obtain ⟨n, hn⟩ := hrun.steps
    refine ⟨n, hn, ?_⟩
    have hreceived := p.after_received n
    rw [hn] at hreceived
    exact hreceived
  · intro k request hm
    obtain ⟨_, _, hvault, hbears⟩ := (p.after k).faithful
    rw [p.after_client k] at hbears
    rw [after_succ]
    refine ⟨hvault (List.ne_nil_of_mem hm), ?_⟩
    rcases hbears request hm with hprobe | hbears
    · exact Or.inl ⟨hprobe, Client.health_basic hprobe⟩
    · exact Or.inr hbears.token
  · intro i j hij hout hkeep
    obtain ⟨n, rfl⟩ : ∃ n, j = i + 2 + n := ⟨j - (i + 2), by omega⟩
    obtain ⟨hguest, hsecretless⟩ := p.guest_since_logout hout hkeep
    have hsent := hguest.sent
    rw [p.after_client] at hsent
    exact ⟨hsent, hsecretless⟩

/-- A user who lists her stores sends her token, and once she has logged out her secret is gone. -/
theorem token_is_sent_until_logout :
    let v : Vault (Beside Memory) :=
      (Vault.closed ⟨Memory.empty, Disk.empty ["home"]⟩ .hmac).save "alice123456" "jwt" ⟨"sk_test123"⟩
    let run : List String → Process (Beside Memory) := fun typed =>
      ⟨.prompt, Desk.greeted ⟨Client.of "http://api.test" .hmac .failOpen, v,
        ⟨true, [], .hangUp, []⟩, 1, typed, []⟩ false⟩
    (∃ request, request ∈ ((run ["kv list"]).after 0).sent ∧
      request.headers.authorization = [("authorization", "Bearer jwt")]) ∧
    (v.storedSecret "alice123456").1.map Secret.text = some "sk_test123" ∧
    ((run ["logout"]).after 0).LogsOut ∧
    (((run ["logout"]).after 2).desk.vault.storedSecret "alice123456").1 = none := by
  intro v run
  have hone : ((run ["kv list"]).after 0).sent.length = 1 := by decide +kernel
  obtain ⟨request, hrequest⟩ := List.length_eq_one_iff.mp hone
  have hsent : request ∈ ((run ["kv list"]).after 0).sent := hrequest ▸ List.mem_cons_self
  have hasked : ((run ["kv list"]).after 0).sent.all
      (fun r => (Client.of "http://api.test" .hmac .failOpen).healthDraft.request? != some r) =
        true := by decide +kernel
  have hprobe := List.all_eq_true.mp hasked request hsent
  obtain ⟨_, _, hbears, _, _⟩ := requests_carry_session
    ⟨Client.of "http://api.test" .hmac .failOpen, v, ⟨true, [], .hangUp, []⟩, 1, ["kv list"], []⟩ false
  obtain ⟨_, _, _, _, hout⟩ := requests_carry_session
    ⟨Client.of "http://api.test" .hmac .failOpen, v, ⟨true, [], .hangUp, []⟩, 1, ["logout"], []⟩ false
  have hlogs : ((run ["logout"]).after 0).LogsOut := ⟨rfl, "logout", [], rfl, rfl⟩
  have hforget : ((run ["logout"]).after 1).point = .forget := hlogs.advance
  refine ⟨⟨request, hsent, ?_⟩, by decide +kernel, hlogs, ?_⟩
  · rcases (hbears 0 request hsent).2 with ⟨h, -⟩ | h
    · exact absurd h (by simpa using hprobe)
    · exact h.trans (by decide +kernel)
  · refine (hout 0 2 (by omega) hlogs ?_).2 ?_ "alice123456"
    · intro k hi hj
      obtain rfl : k = 1 := by omega
      rw [hforget]
      exact id
    · intro k _ _ _
      rfl

/-- A base with a name and a password in it tells them for a guest as well, so what is sent without a
token need not go without authorization. -/
theorem base_credentials_are_sent :
    let p : Process (Beside Memory) := ⟨.prompt, Desk.greeted
      ⟨Client.of "http://u:p@api.test" .hmac .failOpen, .closed ⟨.empty, .empty []⟩ .hmac,
        ⟨true, [], .hangUp, []⟩, 0, ["login", "alice@example.com", "pw"], []⟩ false⟩
    (p.after 0).desk.vault.session.token = none ∧ ∃ request, (p.after 0).sent = [request] ∧
      request.method = .post ∧
      request.headers.authorization = [("authorization", "Basic dTpw")] := by
  intro p
  have hfacts : (p.after 0).sent.map (fun r => (r.method, r.headers.authorization)) =
      [(.post, [("authorization", "Basic dTpw")])] := by decide +kernel
  obtain ⟨request, hsent, hrequest⟩ := List.map_eq_singleton_iff.mp hfacts
  obtain ⟨hmethod, hbasic⟩ := Prod.mk.inj hrequest
  exact ⟨rfl, request, hsent, hmethod, hbasic⟩

end Process
end SignedConsole
