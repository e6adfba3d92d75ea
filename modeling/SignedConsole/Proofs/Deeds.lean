import SignedConsole.Proofs.ConsoleProcess
import SignedConsole.Proofs.Transmission

namespace SignedConsole

/-- The answer to the next request. -/
def Wire.next (w : Wire) : Answer := w.answers.headD w.otherwise

/-- Answers have been taken from the front of those that were ready. -/
structure Wire.AnswersOn (w w' : Wire) : Prop where
  ready : w'.answers <:+ w.answers
  otherwise : w'.otherwise = w.otherwise

theorem Wire.AnswersOn.refl (w : Wire) : AnswersOn w w := ⟨List.suffix_refl w.answers, rfl⟩

theorem Wire.AnswersOn.trans {w w' w'' : Wire} (h : AnswersOn w w') (h' : AnswersOn w' w'') :
    AnswersOn w w'' := ⟨h'.ready.trans h.ready, h'.otherwise.trans h.otherwise⟩

theorem Wire.deliver_answer (request : Request) (w : Wire) :
    AnswersOn w (w.deliver request).2 ∧
      ∀ reply, (w.deliver request).1 = some reply → replyOf w.next = some reply := by
  obtain ⟨reachable, answers, otherwise, received⟩ := w
  cases reachable with
  | false => exact ⟨.refl _, nofun⟩
  | true =>
    cases answers with
    | nil => exact ⟨⟨List.suffix_refl _, rfl⟩, fun reply h => h⟩
    | cons answer rest => exact ⟨⟨⟨[answer], rfl⟩, rfl⟩, fun reply h => h⟩

namespace Client

theorem exchange_answer (d : Draft) (w : Wire) : Wire.AnswersOn w (exchange d w).2 ∧
    ∀ reply, (exchange d w).1 = some reply → Wire.replyOf w.next = some reply := by
  unfold exchange
  split
  · exact Wire.deliver_answer _ w
  · exact ⟨.refl w, nofun⟩

theorem run_answersOn (c : Client) (now : Nat) (session : Session) (call : Call α) (w : Wire) :
    Wire.AnswersOn w (c.run now session call w).2 := by
  cases hd : c.draft now session call with
  | error e =>
    rw [run_of_error hd]
    exact .refl w
  | ok d =>
    rw [run_of_draft hd]
    exact (exchange_answer d w).1

/-- A call that is not signed is made alike whatever the clock shows. -/
theorem run_unsigned (c : Client) {call : Call α} (h : call.isSensitive = false)
    (now later : Nat) (session : Session) (w : Wire) :
    c.run now session call w = c.run later session call w := by
  have hdue (reading : Nat) : c.dueSignature reading session call = .ok [] :=
    if_neg (ne_true_of_eq_false h)
  unfold run
  rw [draft_eq, draft_eq, hdue, hdue]

theorem health_answersOn (c : Client) (w : Wire) : Wire.AnswersOn w (c.health w).2 := by
  rw [health_wire]
  exact (exchange_answer _ w).1

/-- A result is read from the reply that an answer brings. -/
theorem run_ok {c : Client} {now : Nat} {session : Session} {call : Call α} {w : Wire} {a : α}
    (h : (c.run now session call w).1 = .ok a) :
    ∃ reply, Wire.replyOf w.next = some reply ∧ call.outcome reply = .ok a := by
  cases hd : c.draft now session call with
  | error e =>
    rw [run_of_error hd] at h
    cases h
  | ok d =>
    have hanswer := (exchange_answer d w).2
    unfold run at h
    simp only [hd] at h
    rcases hx : exchange d w with ⟨_ | reply, w'⟩
    · rw [hx] at h
      cases h
    · rw [hx] at h hanswer
      exact ⟨reply, hanswer reply rfl, h⟩

end Client

/-- A later desk of the same user, with fewer answers to come. -/
structure Desk.Onward (d d' : Desk σ) : Prop where
  client : d'.client = d.client
  vault : d'.vault = d.vault
  wire : d.wire.AnswersOn d'.wire

instance : Lasting (@Desk.Onward σ) where
  refl d := ⟨rfl, rfl, .refl d.wire⟩
  trans h h' := ⟨h'.client.trans h.client, h'.vault.trans h.vault, h.wire.trans h'.wire⟩
  recorded d _ _ := ⟨rfl, rfl, .refl d.wire⟩
  read d _ _ _ _ _ := ⟨rfl, rfl, .refl d.wire⟩
  called d c := ⟨rfl, rfl, d.client.run_answersOn d.now.shown d.vault.session c d.wire⟩
  probed d := ⟨rfl, rfl, d.client.health_answersOn d.wire⟩

/-- Whether a call that is made from a desk, now or after others, is answered with a result. -/
def Desk.Answered (d : Desk σ) (call : Call α) (a : α) : Prop :=
  ∃ w reply, d.wire.AnswersOn w ∧
    (d.client.run d.now.shown d.vault.session call w).1 = .ok a ∧
    Wire.replyOf w.next = some reply ∧ call.outcome reply = .ok a

/-- What is not signed does not depend on the clock. -/
theorem Desk.Answered.earlier {d d' : Desk σ} {call : Call α} {a : α} (h : d'.Answered call a)
    (hs : call.isSensitive = false) (ho : d.Onward d') : d.Answered call a := by
  obtain ⟨w, reply, hw, hrun, hr, hout⟩ := h
  rw [ho.client, ho.vault, Client.run_unsigned _ hs d'.now.shown d.now.shown] at hrun
  exact ⟨w, reply, ho.wire.trans hw, hrun, hr, hout⟩

/-- Whether the last call between two desks was this one, and was answered with this result. -/
def Desk.LastAnswered (d d' : Desk σ) (call : Call α) (a : α) : Prop :=
  ∃ w reply, d.wire.AnswersOn w ∧
    d.client.run d.now.shown d.vault.session call w = (.ok a, d'.wire) ∧
    Wire.replyOf w.next = some reply ∧ call.outcome reply = .ok a

namespace Desk.LastAnswered
variable {d d₁ d' : Desk σ} {call : Call α} {a : α}

theorem answered (h : d.LastAnswered d' call a) : d.Answered call a := by
  obtain ⟨w, reply, hw, hrun, hr, hout⟩ := h
  exact ⟨w, reply, hw, congrArg Prod.fst hrun, hr, hout⟩

theorem earlier (h : d₁.LastAnswered d' call a) (hs : call.isSensitive = false)
    (ho : d.Onward d₁) : d.LastAnswered d' call a := by
  obtain ⟨w, reply, hw, hrun, hr, hout⟩ := h
  rw [ho.client, ho.vault, Client.run_unsigned _ hs d₁.now.shown d.now.shown] at hrun
  exact ⟨w, reply, ho.wire.trans hw, hrun, hr, hout⟩

theorem later (h : d.LastAnswered d₁ call a) (hw : d'.wire = d₁.wire) :
    d.LastAnswered d' call a := by
  unfold LastAnswered at h ⊢
  rwa [hw]

end Desk.LastAnswered

theorem Attempt.Keeps.ran {R : Desk σ → Desk σ → Prop} {act : Attempt σ α} (h : act.Keeps R)
    {d d' : Desk σ} {r : Except Failure α} (hr : d.perform act.run = (r, d')) : R d d' := by
  have hstep := h.step d
  rwa [hr] at hstep

section
variable {d d' : Desk σ}

theorem Attempt.bind_ok {act : Attempt σ α} {next : α → Attempt σ β} {b : β}
    (h : d.perform (act >>= next).run = (.ok b, d')) : ∃ a d₁, d.perform act.run = (.ok a, d₁) ∧
      d₁.perform (next a).run = (.ok b, d') := by
  rw [Attempt.perform_bind] at h
  rcases hx : d.perform act.run with ⟨f | a, d₁⟩
  · rw [hx] at h
    cases h
  · rw [hx] at h
    exact ⟨a, d₁, rfl, h⟩

theorem Attempt.call_last {c : Call α} {a : α} (h : d.perform (call c).run = (.ok a, d')) :
    d.LastAnswered d' c a := by
  rw [Attempt.call_run] at h
  obtain ⟨hresult, hdesk⟩ := Prod.mk.inj h
  cases hx : (d.client.run d.now.shown d.vault.session c d.wire).1 with
  | error e =>
    rw [hx] at hresult
    cases hresult
  | ok found =>
    rw [hx] at hresult
    cases hresult
    obtain ⟨reply, hreply, hout⟩ := Client.run_ok hx
    refine ⟨d.wire, reply, .refl _, ?_, hreply, hout⟩
    rw [← hdesk, ← hx]
    rfl

theorem Attempt.ask_ok {prompt answer : String} {hidden : Bool}
    (h : d.perform (ask prompt hidden).run = (.ok answer, d')) :
    ∃ line rest, d.typed = line :: rest ∧ answer = Text.trim line ∧ d' = { d with
      typed := rest
      events := d.events ++ [.asked prompt hidden (some answer)] } := by
  rw [ask, Attempt.perform_bind, Attempt.surely_run, Console.perform_readLine] at h
  cases ht : d.typed with
  | nil =>
    rw [ht] at h
    cases h
  | cons line rest =>
    rw [ht] at h
    cases h
    exact ⟨line, rest, rfl, rfl, rfl⟩

end

/-- Whether a secret is entered at a desk: typed, or read from the file whose path is typed. -/
def Desk.Enters [Host σ] (d : Desk σ) (secret : Secret) : Prop :=
  ∃ line ∈ d.typed, match d.vault.scheme with
    | .hmac => secret.text = Text.trim line
    | .rsa => Host.readText (Text.trim line) d.vault.storage = .ok secret.text

/-- What the platform or the user has done for a deed, in a turn that begins at a desk. -/
def Deed.Happened [Host σ] (d : Desk σ) : Deed → Prop
  | .registered r => ∃ email code password, d.Answered (.register email code password) r
  | .granted r => ∃ email password, d.Answered (.login email password) r
  | .entered _ secret => d.Enters secret

namespace Account
variable {d d' : Desk σ}

theorem registration_last {r : Registration}
    (h : d.perform requestRegistration.run = (.ok r, d')) :
    ∃ email code password, d.LastAnswered d' (.register email code password) r := by
  obtain ⟨email, d₁, hemail, h⟩ := Attempt.bind_ok h
  obtain ⟨code, d₂, hcode, h⟩ := Attempt.bind_ok h
  obtain ⟨password, d₃, hpassword, h⟩ := Attempt.bind_ok h
  have h₁ : d.Onward d₁ := requestCode_keeps.ran hemail
  have h₂ : d₁.Onward d₂ := (Attempt.Keeps.ask _ _).ran hcode
  have h₃ : d₂.Onward d₃ := (Attempt.Keeps.ask _ _).ran hpassword
  exact ⟨email, code, password,
    (((Attempt.call_last h).earlier rfl h₃).earlier rfl h₂).earlier rfl h₁⟩

theorem grant_last {r : Grant} (h : d.perform requestGrant.run = (.ok r, d')) :
    ∃ email password, d.LastAnswered d' (.login email password) r := by
  obtain ⟨email, d₁, hemail, h⟩ := Attempt.bind_ok h
  obtain ⟨password, d₂, hpassword, h⟩ := Attempt.bind_ok h
  have h₁ : d.Onward d₁ := (Attempt.Keeps.ask _ _).ran hemail
  have h₂ : d₁.Onward d₂ := (Attempt.Keeps.ask _ _).ran hpassword
  exact ⟨email, password, ((Attempt.call_last h).earlier rfl h₂).earlier rfl h₁⟩

variable [Host σ]

theorem readKeyFile_ok {path : String} {secret : Secret}
    (h : d.perform (readKeyFile path).run = (.ok secret, d')) :
    Host.readText path d.vault.storage = .ok secret.text ∧ d' = d := by
  obtain ⟨_, _, ⟨⟩, h⟩ := Attempt.bind_ok h
  cases hr : Host.readText path d.vault.storage with
  | error e =>
    rw [hr] at h
    cases h
  | ok pem =>
    rw [hr] at h
    cases h
    exact ⟨rfl, rfl⟩

theorem secret_entered {secret : Secret} (h : d.perform askSecret.run = (.ok secret, d')) :
    d.Enters secret := by
  obtain ⟨_, _, ⟨⟩, h⟩ := Attempt.bind_ok h
  unfold Desk.Enters
  cases hs : d.vault.scheme with
  | hmac =>
    rw [hs] at h
    obtain ⟨answer, d₂, hask, h⟩ := Attempt.bind_ok h
    obtain ⟨line, rest, ht, rfl, -⟩ := Attempt.ask_ok hask
    cases h
    exact ⟨line, ht ▸ List.mem_cons_self, rfl⟩
  | rsa =>
    rw [hs] at h
    obtain ⟨path, d₂, hask, h⟩ := Attempt.bind_ok h
    obtain ⟨line, rest, ht, rfl, rfl⟩ := Attempt.ask_ok hask
    exact ⟨line, ht ▸ List.mem_cons_self, (readKeyFile_ok h).1⟩

end Account

namespace Point
variable [Host σ]

/-- A command's deeds are answers, so the line that it was read from may come before. -/
theorem ofCommand_happened (c : Command) {d d' : Desk σ} (ho : d.Onward d') :
    ∀ deed ∈ (d'.perform (ofCommand c)).1.2, deed.Happened d := by
  cases hc : c.reachesVault with
  | true =>
    cases c with
    | register =>
      rcases register_result d' with h | ⟨r, _, hr, h⟩
      · rw [h]
        exact nofun
      · rw [h]
        rintro _ (_ | ⟨_, ⟨⟩⟩)
        obtain ⟨email, code, password, ha⟩ := Account.registration_last hr
        exact ⟨email, code, password, ha.answered.earlier rfl ho⟩
    | login =>
      rcases login_result d' with h | ⟨r, _, hr, h⟩
      · rw [h]
        exact nofun
      · rw [h]
        rintro _ (_ | ⟨_, ⟨⟩⟩)
        obtain ⟨email, password, ha⟩ := Account.grant_last hr
        exact ⟨email, password, ha.answered.earlier rfl ho⟩
    | logout => exact nofun
    | _ => cases hc
  | false =>
    rw [ofCommand_eq hc, Desk.perform_bind]
    exact nofun

/-- Every deed of a step has happened in it. -/
theorem step_happened (p : Point) (d : Desk σ) :
    ∀ deed ∈ (d.perform p.step).1.2, deed.Happened d := by
  cases p with
  | start => exact nofun
  | prompt =>
    rcases prompt_result d with h | ⟨c, typed, events, h⟩
    · rw [h]
      exact nofun
    · rw [h]
      exact ofCommand_happened c ⟨rfl, rfl, .refl d.wire⟩
  | search r =>
    rw [search_deeds]
    exact nofun
  | entry r =>
    rcases entry_result d r with h | ⟨secret, _, hs, h⟩
    · rw [h]
      exact nofun
    · rw [h]
      rintro _ (_ | ⟨_, ⟨⟩⟩)
      exact Account.secret_entered hs
  | keep userId token secret lines => exact nofun
  | forget => exact nofun
  | stopped => exact nofun

end Point
end SignedConsole
