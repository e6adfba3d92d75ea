import SignedConsole.Proofs.CommandGrammar

namespace SignedConsole

/-- A question, with the field that its answer goes to. -/
structure Question where
  prompt : String
  hidden : Bool
  field : String

def Question.email : Question := ⟨"Enter email:", false, "email"⟩

namespace Production

/-- What is asked before the first call. -/
def questions : Production → List Question
  | register | resetPassword => [.email]
  | login => [.email, ⟨"Enter password:", true, "password"⟩]
  | add .database => [⟨"Enter RDB name:", false, "name"⟩]
  | add .store =>
    [⟨"Enter KV type (redis/memory):", false, "kv_type"⟩, ⟨"Enter KV URL:", false, "url"⟩]
  | add .worker => [⟨"Enter worker name:", false, "worker_name"⟩]
  | add .domain =>
    [⟨"Enter your domain (e.g. api.example.com):", false, "domain"⟩,
      ⟨"Enter target domain to proxy to:", false, "target"⟩]
  | status | list _ | get .. | page .. | delete .. | entries .. | updates .. => []

def method : Production → Method
  | register | login | resetPassword | add _ | updates .. => .post
  | status | list _ | get .. | page .. | entries .. => .get
  | delete .. => .delete

/-- The address of the first call below the base. -/
def path : Production → String
  | register | resetPassword => "/api/auth/send-code"
  | login => "/api/auth/login"
  | status => "/health"
  | list k | add k => "/api/" ++ k.name
  | get k id | delete k id => "/api/" ++ k.name ++ "/" ++ id
  | page id offset =>
    "/api/worker/" ++ id ++ if 0 < offset then "?offset=" ++ Text.decimal offset else ""
  | entries b id | updates b id => "/api/worker/" ++ id ++ b.place

/-- The body of the first call for some answers. -/
def body (p : Production) (answers : List String) : Option Json :=
  match p.method with
  | .get => none
  | .post | .delete => some (Call.texts ((p.questions.map Question.field).zip answers))

/-- The address that is posted to after the first call, if there is one. -/
def later? : Production → Option String
  | register => some "/api/auth/register"
  | resetPassword => some "/api/auth/reset-password"
  | updates b id => some ("/api/worker/" ++ id ++ b.place)
  | login | status | list _ | add _ | get .. | page .. | delete .. | entries .. => none

def needsToken : Production → Bool
  | register | login | resetPassword | status => false
  | list _ | add _ | get .. | page .. | delete .. | entries .. | updates .. => true

/-- The body of the first call for the lines that are typed, if they are enough for one. -/
def body? (p : Production) (typed : List String) : Option (Option Json) :=
  match p with
  | updates .. => (Workers.entered typed).head?.map fun u => some u.toJson
  | p =>
    if typed.length < p.questions.length then none
    else some (p.body ((typed.take p.questions.length).map Text.trim))

end Production

/-- A call, or the question for health. -/
inductive Opening : Type 1 where
  | call {α : Type} (c : Call α)
  | health

namespace Opening

def method : Opening → Method
  | call c => c.method
  | health => .get

def path : Opening → String
  | call c => c.path
  | health => "/health"

def body : Opening → Option Json
  | call c => c.body
  | health => none

/-- The wire once the call has been made from a desk. -/
def send (d : Desk σ) : Opening → Wire
  | call c => (d.client.run d.now.shown d.vault.session c d.wire).2
  | health => (d.client.health d.wire).2

/-- The clock once the call has been made from a desk. -/
def tick (d : Desk σ) : Opening → Clock
  | call c => d.client.clockAfter d.now d.vault.session c
  | health => d.now

/-- What is typed and told does not matter to a call. -/
theorem send_told (made : Opening) (d : Desk σ) (typed : List String) (events : List Event) :
    made.send { d with typed, events } = made.send d ∧
      made.tick { d with typed, events } = made.tick d := by
  cases made <;> exact ⟨rfl, rfl⟩

end Opening

/-- The calls that a production may begin with, by what they send along. -/
structure Production.Makes (p : Production) (document : Option Json) (made : Opening) : Prop where
  method : made.method = p.method
  path : made.path = p.path
  body : made.body = document

/-- All that has been sent since was posted to one address, if there is one. -/
structure Desk.PostedTo (later : Option String) (d d' : Desk σ) : Prop where
  client : d'.client = d.client
  told : ∃ told, d'.events = d.events ++ told
  sent : ∃ requests, d'.wire.received = d.wire.received ++ requests ∧
    ∀ r ∈ requests, ∃ path, later = some path ∧ r.method = .post ∧
      Url.parse? (d.client.baseUrl ++ path) = some r.url

instance (later : Option String) : Watched (fun _ => True)
    (fun _ c => c.method = .post ∧ later = some c.path) (@Desk.PostedTo σ later) where
  refl d := ⟨rfl, ⟨[], by simp⟩, [], by simp⟩
  trans := by
    rintro d d' d'' ⟨hclient, ⟨told, he⟩, requests, hr, hp⟩ ⟨hclient', ⟨told', he'⟩, more, hm, hp'⟩
    rw [hclient] at hp'
    refine ⟨hclient'.trans hclient, ⟨told ++ told', ?_⟩, requests ++ more, ?_, ?_⟩
    · rw [he', he, List.append_assoc]
    · rw [hm, hr, List.append_assoc]
    · intro r h
      rcases List.mem_append.mp h with h | h
      · exact hp r h
      · exact hp' r h
  recorded d events _ := ⟨rfl, ⟨events, rfl⟩, [], by simp⟩
  read d _ _ _ _ _ _ := ⟨rfl, ⟨_, rfl⟩, [], by simp⟩
  called d c h := by
    refine ⟨rfl, ⟨[], (List.append_nil _).symm⟩, _, Client.run_received .., fun r hr => ?_⟩
    obtain ⟨hmethod, hurl, -⟩ := Client.run_fields r hr
    exact ⟨c.path, h.2, hmethod.trans h.1, hurl⟩

/-- The desk once questions have been answered and a call has been made. -/
def Desk.opening (d : Desk σ) (questions : List Question) (made : List String → Opening) :
    Desk σ :=
  { d with
    typed := d.typed.drop questions.length
    events := d.events ++ List.zipWith (fun q answer => .asked q.prompt q.hidden (some answer))
      questions (d.typed.map Text.trim)
    wire := (made ((d.typed.take questions.length).map Text.trim)).send d
    now := (made ((d.typed.take questions.length).map Text.trim)).tick d }

/-- Questions are asked, and if there are lines enough to answer them, a call is made that the
answers determine, before anything is posted to another address. -/
structure Desk.Opened (later : Option String) (questions : List Question)
    (made : List String → Opening) (d d' : Desk σ) : Prop where
  few : d.typed.length < questions.length → d'.wire = d.wire
  enough : questions.length ≤ d.typed.length → (d.opening questions made).PostedTo later d'

/-- Attempts that ask questions and then make a call. -/
inductive Attempt.Opens (later : Option String) : {α : Type} → List Question →
    (List String → Opening) → Attempt σ α → Prop where
  | call {α : Type} (c : Call α) : Opens later [] (fun _ => .call c) (Attempt.call c)
  | said {α : Type} {made : List String → Opening} {act : Attempt σ α} (lines : List Line)
      (h : Opens later [] made act) : Opens later [] made (Attempt.tell lines >>= fun _ => act)
  | ask {α : Type} {questions : List Question} {made : List String → Opening}
      {next : String → Attempt σ α} (q : Question)
      (h : ∀ answer,
        Opens later questions (fun answers => made (answer :: answers)) (next answer)) :
      Opens later (q :: questions) made (Attempt.ask q.prompt q.hidden >>= next)
  | andThen {α β : Type} {questions : List Question} {made : List String → Opening}
      {act : Attempt σ α} {next : α → Attempt σ β} (h : Opens later questions made act)
      (hn : ∀ a, (next a).Keeps (Desk.PostedTo later)) : Opens later questions made (act >>= next)

theorem Attempt.ask_run (d : Desk σ) (prompt : String) (hidden : Bool) :
    d.perform (ask prompt hidden).run = match d.typed with
      | [] => (.error .inputClosed, { d with events := d.events ++ [.asked prompt hidden none] })
      | line :: rest => (.ok (Text.trim line), { d with
          typed := rest
          events := d.events ++ [.asked prompt hidden (some (Text.trim line))] }) := by
  rw [ask, Attempt.perform_bind, Attempt.surely_run, Console.perform_readLine]
  cases d.typed <;> rfl

theorem Attempt.Opens.opened {later : Option String} {questions : List Question}
    {made : List String → Opening} {act : Attempt σ α} (h : Opens later questions made act)
    (d : Desk σ) : d.Opened later questions made (d.perform act.run).2 ∧
      (d.typed.length < questions.length → ∃ f, (d.perform act.run).1 = .error f) := by
  induction h generalizing d with
  | call c =>
    have hopening : d.opening [] (fun _ => .call c) = (d.perform (Attempt.call c).run).2 := by
      rw [Attempt.call_run]
      simp [Desk.opening, Opening.send, Opening.tick, Desk.called]
    have hfew : ¬ d.typed.length < ([] : List Question).length := Nat.not_lt_zero _
    refine ⟨⟨fun hlen => absurd hlen hfew, fun _ => ?_⟩, fun hlen => absurd hlen hfew⟩
    rw [hopening]
    exact Watched.refl _
  | @said _ made act lines h ih =>
    let told : Desk σ := { d with events := d.events ++ lines.map Event.printed }
    have hrun : d.perform (Attempt.tell lines >>= fun _ => act).run = told.perform act.run := by
      rw [Attempt.perform_bind]
      rfl
    have hopening : told.opening [] made = { d.opening [] made with
        events := (d.opening [] made).events ++ lines.map Event.printed } := by
      have hsend := (made []).send_told d d.typed told.events
      simpa [Desk.opening, told] using hsend
    have hfew : ¬ d.typed.length < ([] : List Question).length := Nat.not_lt_zero _
    refine ⟨⟨fun hlen => absurd hlen hfew, fun _ => ?_⟩, fun hlen => absurd hlen hfew⟩
    rw [hrun]
    refine Watched.trans ?_ ((ih told).1.enough (Nat.zero_le _))
    rw [hopening]
    refine Watched.recorded _ _ fun e he => ?_
    obtain ⟨_, _, rfl⟩ := List.mem_map.mp he
    exact ⟨trivial, rfl⟩
  | @ask _ questions made next q h ih =>
    rw [Attempt.perform_bind, Attempt.ask_run]
    cases ht : d.typed with
    | nil =>
      refine ⟨⟨fun _ => rfl, fun hlen => ?_⟩, fun _ => ⟨_, rfl⟩⟩
      rw [ht] at hlen
      cases hlen
    | cons line rest =>
      let answered : Desk σ := { d with
        typed := rest
        events := d.events ++ [.asked q.prompt q.hidden (some (Text.trim line))] }
      obtain ⟨⟨hfew, henough⟩, hfails⟩ := ih (Text.trim line) answered
      have hopening : answered.opening questions (fun as => made (Text.trim line :: as)) =
          d.opening (q :: questions) made := by
        have hsend :=
          (made (Text.trim line :: (rest.take questions.length).map Text.trim)).send_told
            d rest answered.events
        simpa [Desk.opening, answered, ht] using hsend
      rw [hopening] at henough
      refine ⟨⟨fun hlen => ?_, fun hlen => ?_⟩, fun hlen => ?_⟩
      · rw [ht] at hlen
        exact hfew (Nat.lt_of_succ_lt_succ hlen)
      · rw [ht] at hlen
        exact henough (Nat.le_of_succ_le_succ hlen)
      · exact hfails (Nat.lt_of_succ_lt_succ hlen)
  | @andThen _ _ questions made act next h hn ih =>
    obtain ⟨⟨hfew, henough⟩, hfails⟩ := ih d
    rw [Attempt.perform_bind]
    cases hact : d.perform act.run with
    | mk r d₁ =>
      rw [hact] at hfew henough hfails
      cases r with
      | error f => exact ⟨⟨hfew, henough⟩, fun _ => ⟨f, rfl⟩⟩
      | ok a =>
        have hmany : questions.length ≤ d.typed.length := by
          refine Nat.le_of_not_lt fun hlen => ?_
          obtain ⟨f, hf⟩ := hfails hlen
          cases hf
        refine ⟨⟨fun hlen => absurd hlen (Nat.not_lt_of_le hmany), fun _ => ?_⟩,
          fun hlen => absurd hlen (Nat.not_lt_of_le hmany)⟩
        exact Watched.trans (henough hmany) ((hn a).step d₁)

/-- Commands that ask and call as a production says. -/
def Console.Opens (p : Production) (act : Console σ Unit) : Prop :=
  ∃ made,
    (∀ answers, answers.length = p.questions.length → p.Makes (p.body answers) (made answers)) ∧
    ∀ d : Desk σ, d.Opened p.later? p.questions made (d.perform act).2

namespace Console.Opens
variable {p : Production}

theorem attempt (task : String) (made : List String → Opening) {act : Attempt σ Unit}
    (h : act.Opens p.later? p.questions made)
    (hmade : ∀ answers, answers.length = p.questions.length →
      p.Makes (p.body answers) (made answers)) :
    Opens p (Console.attempt task act) := by
  refine ⟨made, hmade, fun d => ?_⟩
  obtain ⟨⟨hfew, henough⟩, -⟩ := h.opened d
  rw [perform_attempt]
  cases hact : d.perform act.run with
  | mk r d₁ =>
    rw [hact] at hfew henough
    cases r with
    | ok _ => exact ⟨hfew, henough⟩
    | error f =>
      refine ⟨hfew, fun hlen => Watched.trans (henough hlen) ?_⟩
      exact Watched.recorded _ _ fun e he => (List.mem_singleton.mp he) ▸ ⟨trivial, rfl⟩

/-- One call without a question, and what is told of its result. -/
theorem call (task : String) {c : Call α} {lines : α → List Line} (hq : p.questions = [])
    (h : p.Makes (p.body []) (.call c)) :
    Opens (σ := σ) p
      (Console.attempt task (Attempt.call c >>= fun a => Attempt.tell (lines a))) := by
  refine attempt task (fun _ => .call c) ?_ ?_
  · rw [hq]
    exact .andThen (.call c) fun _ => Watched.say fun _ _ => trivial
  · intro answers hlen
    rw [hq] at hlen
    rw [List.length_eq_zero_iff.mp hlen]
    exact h

/-- One call with one question before it. -/
theorem ask_call (task : String) (q : Question) {c : String → Call α} {lines : α → List Line}
    (hq : p.questions = [q]) (h : ∀ answer, p.Makes (p.body [answer]) (.call (c answer))) :
    Opens (σ := σ) p (Console.attempt task (Attempt.ask q.prompt q.hidden >>= fun answer =>
      Attempt.call (c answer) >>= fun a => Attempt.tell (lines a))) := by
  refine attempt task (fun answers => .call (c (answers.headD ""))) ?_ ?_
  · rw [hq]
    exact .ask q fun answer => .andThen (.call (c answer)) fun _ => Watched.say fun _ _ => trivial
  · intro answers hlen
    rw [hq] at hlen
    obtain ⟨answer, rfl⟩ := List.length_eq_one_iff.mp hlen
    exact h answer

/-- One call with two questions before it. -/
theorem ask_both (task : String) (q r : Question) {c : String → String → Call α}
    {next : α → Attempt σ Unit} (hq : p.questions = [q, r])
    (hnext : ∀ a, (next a).Keeps (Desk.PostedTo p.later?))
    (h : ∀ answer other, p.Makes (p.body [answer, other]) (.call (c answer other))) :
    Opens p (Console.attempt task (Attempt.ask q.prompt q.hidden >>= fun answer =>
      Attempt.ask r.prompt r.hidden >>= fun other =>
        Attempt.call (c answer other) >>= next)) := by
  refine attempt task (fun answers => .call (c (answers.headD "") (answers.tail.headD ""))) ?_ ?_
  · rw [hq]
    exact .ask q fun answer => .ask r fun other => .andThen (.call (c answer other)) hnext
  · intro answers hlen
    rw [hq] at hlen
    obtain ⟨answer, other, rfl⟩ := List.length_eq_two.mp hlen
    exact h answer other

end Console.Opens

open Console (Opens)

theorem Opening.path_of_whole {call : Call α} {k : Kind} {id : String}
    (h : call.target? = some ⟨k, id, .whole⟩) :
    (Opening.call call).path = "/api/" ++ k.name ++ "/" ++ id := by
  rw [Opening.path, Call.path_of_target h, Target.address, Facet.text, String.append_empty]

theorem Call.path_of_page (id : String) (offset : Nat) :
    (getWorker id offset).path = (Production.page id offset).path := by
  cases offset <;> rfl

theorem Databases.run_opens (c : DatabaseCommand) : Opens (σ := σ) c.production (run (.ok c)) := by
  cases c with
  | list => exact .call _ rfl ⟨rfl, rfl, rfl⟩
  | get id | delete id => exact .call _ rfl ⟨rfl, Opening.path_of_whole rfl, rfl⟩
  | add => exact .ask_call _ ⟨"Enter RDB name:", false, "name"⟩ rfl fun _ => ⟨rfl, rfl, rfl⟩

theorem Stores.run_opens (c : StoreCommand) : Opens (σ := σ) c.production (run (.ok c)) := by
  cases c with
  | list => exact .call _ rfl ⟨rfl, rfl, rfl⟩
  | delete id => exact .call _ rfl ⟨rfl, Opening.path_of_whole rfl, rfl⟩
  | add =>
    exact .ask_both _ ⟨"Enter KV type (redis/memory):", false, "kv_type"⟩
      ⟨"Enter KV URL:", false, "url"⟩ rfl (fun _ => Watched.say fun _ _ => trivial)
      fun _ _ => ⟨rfl, rfl, rfl⟩

theorem Domains.run_opens (c : DomainCommand) : Opens (σ := σ) c.production (run (.ok c)) := by
  cases c with
  | list => exact .call _ rfl ⟨rfl, rfl, rfl⟩
  | get id | delete id => exact .call _ rfl ⟨rfl, Opening.path_of_whole rfl, rfl⟩
  | add =>
    exact .ask_both _ ⟨"Enter your domain (e.g. api.example.com):", false, "domain"⟩
      ⟨"Enter target domain to proxy to:", false, "target"⟩ rfl
      (fun _ => Watched.say fun _ _ => trivial) fun _ _ => ⟨rfl, rfl, rfl⟩

theorem Workers.run_opens (c : WorkerCommand) (h : ∀ b id, c.production ≠ .updates b id) :
    Opens (σ := σ) c.production (run (.ok c)) := by
  match c, h with
  | .list, _ => exact .call _ rfl ⟨rfl, rfl, rfl⟩
  | .add, _ =>
    exact .ask_call _ ⟨"Enter worker name:", false, "worker_name"⟩ rfl fun _ => ⟨rfl, rfl, rfl⟩
  | .get id offset, _ => exact .call _ rfl ⟨rfl, Call.path_of_page id offset, rfl⟩
  | .delete id, _ => exact .call _ rfl ⟨rfl, Opening.path_of_whole rfl, rfl⟩
  | .variables id, _ | .secrets id, _ => exact .call _ rfl ⟨rfl, rfl, rfl⟩
  | .setVariables id, h | .setSecrets id, h => exact absurd rfl (h _ _)

namespace Account

theorem requestCode_opens (later : Option String) : (requestCode (σ := σ)).Opens later [.email]
    fun answers => .call (.sendCode (answers.headD "")) :=
  .ask .email fun email => .said _ (.andThen (.call (.sendCode email)) fun _ =>
    Watched.andThen (Watched.say fun _ _ => trivial) fun _ => Watched.done _)

theorem requestGrant_opens (later : Option String) : (requestGrant (σ := σ)).Opens later
    [.email, ⟨"Enter password:", true, "password"⟩]
    fun answers => .call (.login (answers.headD "") (answers.tail.headD "")) :=
  .ask .email fun email => .ask ⟨"Enter password:", true, "password"⟩ fun password =>
    .call (.login email password)

theorem ask_posts (later : Option String) (prompt : String) (hidden : Bool) :
    (Attempt.ask (σ := σ) prompt hidden).Keeps (Desk.PostedTo later) :=
  Watched.ask fun _ => trivial

theorem resetPassword_opens : Opens (σ := σ) .resetPassword resetPassword := by
  refine .attempt _ _ (.andThen (requestCode_opens _) fun email => ?_) fun answers hlen => ?_
  · exact Watched.andThen (ask_posts _ _ _) fun _ => Watched.andThen (ask_posts _ _ _) fun _ =>
      Watched.andThen (Watched.call ⟨rfl, rfl⟩) fun _ => Watched.say fun _ _ => trivial
  · obtain ⟨email, rfl⟩ := List.length_eq_one_iff.mp hlen
    exact ⟨rfl, rfl, rfl⟩

variable [Host σ]

omit [Host σ] in
theorem changeVault_posts (later : Option String) (f : Vault σ → α × Vault σ) :
    Console.Keeps (Desk.PostedTo later) (Console.changeVault f) :=
  ⟨fun _ => ⟨rfl, ⟨[], (List.append_nil _).symm⟩, [], (List.append_nil _).symm, nofun⟩⟩

theorem save_posts (later : Option String) (userId token : String) (secret : Secret) :
    (save (σ := σ) userId token secret).Keeps (Desk.PostedTo later) :=
  Watched.surely (changeVault_posts later _)

theorem register_opens : Opens (σ := σ) .register register := by
  refine .attempt _ _ (.andThen (.andThen (requestCode_opens _) fun email => ?_) fun r => ?_)
    fun answers hlen => ?_
  · exact Watched.andThen (ask_posts _ _ _) fun _ => Watched.andThen (ask_posts _ _ _) fun _ =>
      Watched.call ⟨rfl, rfl⟩
  · exact Watched.andThen (save_posts _ _ _ _) fun _ => Watched.say fun _ _ => trivial
  · obtain ⟨email, rfl⟩ := List.length_eq_one_iff.mp hlen
    exact ⟨rfl, rfl, rfl⟩

theorem login_opens : Opens (σ := σ) .login login := by
  refine .attempt _ _ (.andThen (requestGrant_opens _) fun r => ?_) fun answers hlen => ?_
  · have hfind : (findSecret (σ := σ) r.userId).Keeps (Desk.PostedTo (Production.later? .login)) :=
      findSecret_lasts (changeVault_posts _ _) (fun _ _ _ => trivial) (fun _ => trivial)
        fun _ => trivial
    exact Watched.andThen hfind fun _ => Watched.andThen (save_posts _ _ _ _) fun _ =>
      Watched.say fun _ _ => trivial
  · obtain ⟨email, password, rfl⟩ := List.length_eq_two.mp hlen
    exact ⟨rfl, rfl, rfl⟩

omit [Host σ] in
theorem status_opens : Opens (σ := σ) .status status := by
  refine ⟨fun _ => .health, fun _ _ => ⟨rfl, rfl, rfl⟩, fun d => ⟨nofun, fun _ => ?_⟩⟩
  have hopening : d.opening [] (fun _ => .health) =
      { d with wire := (d.client.health d.wire).2 } := by
    simp [Desk.opening, Opening.send, Opening.tick]
  change Desk.PostedTo _ (d.opening [] fun _ => .health) _
  rw [hopening]
  refine Watched.recorded _ _ fun e he => ?_
  obtain ⟨_, _, rfl⟩ := List.mem_map.mp he
  exact ⟨trivial, rfl⟩

end Account

/-- A command that asks for something runs a program that asks and calls as its production says.
What enters updates is left to them. -/
theorem Console.execute_opens [Host σ] {c : Command} {p : Production} (h : c.production? = some p)
    (hu : ∀ b id, p ≠ .updates b id) {d : Desk σ}
    (htoken : p.needsToken = true → d.vault.session.isAuthenticated = true) :
    ∃ act, Opens p act ∧ (d.perform (execute c)).2 = (d.perform act).2 := by
  have hrun {act : Console σ Unit} (ht : p.needsToken = true) :
      (d.perform (authenticated act >>= fun _ => pure Next.goOn)).2 = (d.perform act).2 := by
    rw [Desk.perform_bind, perform_authenticated _ (htoken ht)]
    rfl
  cases c with
  | register =>
    cases h
    exact ⟨_, Account.register_opens, rfl⟩
  | login =>
    cases h
    exact ⟨_, Account.login_opens, rfl⟩
  | resetPassword =>
    cases h
    exact ⟨_, Account.resetPassword_opens, rfl⟩
  | status =>
    cases h
    exact ⟨_, Account.status_opens, rfl⟩
  | databases c =>
    obtain ⟨c, rfl, rfl⟩ := OrUsage.production_ok h
    exact ⟨_, Databases.run_opens c, hrun (by cases c <;> rfl)⟩
  | stores c =>
    obtain ⟨c, rfl, rfl⟩ := OrUsage.production_ok h
    exact ⟨_, Stores.run_opens c, hrun (by cases c <;> rfl)⟩
  | workers c =>
    obtain ⟨c, rfl, rfl⟩ := OrUsage.production_ok h
    exact ⟨_, Workers.run_opens c hu, hrun (by cases c <;> rfl)⟩
  | domains c =>
    obtain ⟨c, rfl, rfl⟩ := OrUsage.production_ok h
    exact ⟨_, Domains.run_opens c, hrun (by cases c <;> rfl)⟩
  | _ => cases h

/-- A command whose production enters updates. -/
theorem Command.of_updates {c : Command} {b : Batch} {id : String}
    (h : c.production? = some (.updates b id)) : c = .workers (.ok (b.command id)) := by
  cases c with
  | databases c =>
    obtain ⟨c, rfl, hc⟩ := OrUsage.production_ok h
    cases c <;> cases hc
  | stores c =>
    obtain ⟨c, rfl, hc⟩ := OrUsage.production_ok h
    cases c <;> cases hc
  | workers c =>
    obtain ⟨c, rfl, hc⟩ := OrUsage.production_ok h
    cases c <;> cases hc <;> rfl
  | domains c =>
    obtain ⟨c, rfl, hc⟩ := OrUsage.production_ok h
    cases c <;> cases hc
  | _ => cases h

/-- Nothing has been sent, read or asked since. -/
structure Desk.Quiet (d d' : Desk σ) : Prop where
  wire : d'.wire = d.wire
  typed : d'.typed = d.typed
  told : ∃ told, d'.events = d.events ++ told ∧
    ∀ prompt hidden answer, Event.asked prompt hidden answer ∉ told

theorem Desk.Quiet.of_lines {d d' : Desk σ} (lines : List Line) (hwire : d'.wire = d.wire)
    (htyped : d'.typed = d.typed) (he : d'.events = d.events ++ lines.map Event.printed) :
    d.Quiet d' := by
  refine ⟨hwire, htyped, _, he, fun prompt hidden answer hm => ?_⟩
  obtain ⟨_, _, h⟩ := List.mem_map.mp hm
  cases h

theorem Console.authenticated_quiet (act : Console σ Unit) {d : Desk σ}
    (h : d.vault.session.isAuthenticated = false) : d.Quiet (d.perform (authenticated act)).2 := by
  have hguest : d.vault.session.token = none := by simpa [Session.isAuthenticated] using h
  rw [authenticated_guest hguest]
  exact .of_lines [.error "Please login first"] rfl rfl rfl

theorem Console.resource_quiet {c : OrUsage γ} {production : γ → Production}
    {run : OrUsage γ → Console σ Unit} {d : Desk σ}
    (husage : ∀ usage, run (.error usage) = Console.usage usage)
    (h : ∀ p, c.toOption.map production = some p →
      p.needsToken = true ∧ d.vault.session.isAuthenticated = false) :
    d.Quiet (d.perform (authenticated (run c))).2 := by
  cases hs : d.vault.session.isAuthenticated with
  | false => exact authenticated_quiet _ hs
  | true =>
    rw [perform_authenticated _ hs]
    cases c with
    | error usage =>
      rw [husage]
      exact .of_lines _ rfl rfl rfl
    | ok a =>
      have hnone := (h _ rfl).2
      rw [hs] at hnone
      cases hnone

/-- A command that asks for nothing, or for something that a token is missing for, is quiet. -/
theorem Console.execute_quiet [Host σ] {c : Command} {d : Desk σ}
    (h : ∀ p, c.production? = some p →
      p.needsToken = true ∧ d.vault.session.isAuthenticated = false) :
    d.Quiet (d.perform (execute c)).2 := by
  cases c with
  | register | login | resetPassword | status => cases (h _ rfl).1
  | nothing | leave => exact .of_lines [] rfl rfl (List.append_nil _).symm
  | help | whoami | unknown _ | logout => exact .of_lines _ rfl rfl rfl
  | clear => exact ⟨rfl, rfl, [.cleared], rfl, fun _ _ _ hm => by cases List.mem_singleton.mp hm⟩
  | databases c => exact resource_quiet (fun _ => rfl) h
  | stores c => exact resource_quiet (fun _ => rfl) h
  | workers c => exact resource_quiet (fun _ => rfl) h
  | domains c => exact resource_quiet (fun _ => rfl) h

/-- A call sends itself, at most once. -/
theorem Opening.sent (made : Opening) (d : Desk σ) : ∃ first,
    (made.send d).received = d.wire.received ++ first ∧ first.length ≤ 1 ∧
      ∀ r ∈ first, r.method = made.method ∧
        Url.parse? (d.client.baseUrl ++ made.path) = some r.url ∧
        r.body = made.body.map Json.print := by
  cases made with
  | call c =>
    refine ⟨_, Client.run_received .., ?_, fun r hr => Client.run_fields r hr⟩
    cases hd : d.client.draft d.now.shown d.vault.session c with
    | error e => rw [Client.receivedSince_error hd]; exact Nat.zero_le 1
    | ok draft => rw [Client.receivedSince_draft hd]; exact Client.sentBy_length draft d.wire
  | health =>
    refine ⟨_, Client.health_received .., ?_, fun r hr => ?_⟩
    · rw [Client.health_receivedSince]
      exact Client.sentBy_length _ _
    · rw [Client.health_receivedSince] at hr
      obtain ⟨hmethod, hurl, -, hbody⟩ := Draft.request_fields (Client.mem_sentBy hr)
      exact ⟨hmethod, hurl, hbody⟩

/-- What is sent for a production: its own call at most once, and then posts to one address. -/
structure Production.Sends (p : Production) (document : Option Json) (d d' : Desk σ)
    (made : Opening) (first more : List Request) : Prop extends p.Makes document made where
  sent : (made.send d).received = d.wire.received ++ first
  once : first.length ≤ 1
  opens : ∀ r ∈ first, r.method = p.method ∧
    Url.parse? (d.client.baseUrl ++ p.path) = some r.url ∧ r.body = document.map Json.print
  received : d'.wire.received = d.wire.received ++ first ++ more
  follows : ∀ r ∈ more, ∃ path, p.later? = some path ∧ r.method = .post ∧
    Url.parse? (d.client.baseUrl ++ path) = some r.url

theorem Production.Makes.sends {p : Production} {document : Option Json} {d d' : Desk σ}
    {made : Opening} {more : List Request} (h : p.Makes document made)
    (hreceived : d'.wire.received = (made.send d).received ++ more)
    (hmore : ∀ r ∈ more, ∃ path, p.later? = some path ∧ r.method = .post ∧
      Url.parse? (d.client.baseUrl ++ path) = some r.url) :
    ∃ made first more, p.Sends document d d' made first more := by
  obtain ⟨first, hsent, honce, hfirst⟩ := made.sent d
  rw [h.method, h.path, h.body] at hfirst
  exact ⟨made, first, more, h, hsent, honce, hfirst, by rw [hreceived, hsent], hmore⟩

theorem Production.body_of_questions {p : Production} (h : ∀ b id, p ≠ .updates b id)
    (typed : List String) : p.body? typed = if typed.length < p.questions.length then none
      else some (p.body ((typed.take p.questions.length).map Text.trim)) := by
  cases p with
  | updates b id => exact absurd rfl (h b id)
  | _ => rfl

/-- What a command that asks for something comes to. -/
theorem Console.execute_sends [Host σ] {c : Command} {p : Production} (h : c.production? = some p)
    {d : Desk σ} (htoken : p.needsToken = true → d.vault.session.isAuthenticated = true) :
    match p.body? d.typed with
    | none => (d.perform (execute c)).2.wire = d.wire
    | some document =>
      (∃ told, (d.perform (execute c)).2.events = d.events ++
        List.zipWith (fun q answer => .asked q.prompt q.hidden (some answer)) p.questions
          (d.typed.map Text.trim) ++ told) ∧
      ∃ made first more, p.Sends document d (d.perform (execute c)).2 made first more := by
  by_cases hu : ∃ b id, p = .updates b id
  · obtain ⟨b, id, rfl⟩ := hu
    obtain rfl := Command.of_updates h
    obtain ⟨told, _, w', hending, hrun⟩ := b.perform_run id d
    have hexecute : (d.perform (execute (.workers (.ok (b.command id))))).2 = _ :=
      (congrArg Prod.snd (perform_authenticated _ (htoken rfl))).trans hrun
    rw [hexecute, Production.body?]
    cases hus : Workers.entered d.typed with
    | nil =>
      rw [hus] at hending
      exact hending.nothing_sent
    | cons u us =>
      rw [hus] at hending
      obtain ⟨more, hreceived, hmore⟩ := hending.opens
      have hposts : ∀ r ∈ more, ∃ path, (Production.updates b id).later? = some path ∧
          r.method = .post ∧ Url.parse? (d.client.baseUrl ++ path) = some r.url := by
        intro r hr
        obtain ⟨_, hmethod, hurl, -⟩ := hmore r hr
        exact ⟨_, rfl, hmethod, hurl⟩
      have hmade : (Production.updates b id).Makes (some u.toJson) (.call (b.make id u)) := by
        cases b <;> exact ⟨rfl, rfl, rfl⟩
      obtain ⟨read, hread⟩ : ∃ read, (b.heard d).events = d.events ++ read := ⟨_, rfl⟩
      refine ⟨⟨read ++ told.map Event.printed, ?_⟩, hmade.sends hreceived hposts⟩
      change (b.heard d).events ++ _ = d.events ++ [] ++ _
      rw [hread, List.append_nil, List.append_assoc]
  · obtain ⟨act, ⟨made, hmade, hopens⟩, hrun⟩ :=
      execute_opens h (fun b id hp => hu ⟨b, id, hp⟩) htoken
    obtain ⟨hfew, henough⟩ := hopens d
    rw [hrun, Production.body_of_questions fun b id hp => hu ⟨b, id, hp⟩]
    by_cases hlen : d.typed.length < p.questions.length
    · rw [if_pos hlen]
      exact hfew hlen
    · rw [if_neg hlen]
      have hanswers : ((d.typed.take p.questions.length).map Text.trim).length =
          p.questions.length := by
        rw [List.length_map, List.length_take, Nat.min_eq_left (Nat.le_of_not_lt hlen)]
      obtain ⟨-, ⟨told, htold⟩, more, hreceived, hmore⟩ := henough (Nat.le_of_not_lt hlen)
      exact ⟨⟨told, htold⟩, (hmade _ hanswers).sends hreceived hmore⟩

theorem Grammar.iff_line {line : String} {p : Production} :
    Grammar (Text.words line) p ↔ (Command.ofLine line).production? = some p := iff_command

/-- Where no address is posted to after the first call, that call is all. -/
theorem Production.Sends.alone {p : Production} {document : Option Json} {d d' : Desk σ}
    {made : Opening} {first more : List Request} (h : p.Sends document d d' made first more)
    (hlater : p.later? = none) : more = [] := by
  refine List.eq_nil_iff_forall_not_mem.mpr fun r hr => ?_
  obtain ⟨_, hpath, -⟩ := h.follows r hr
  cases hlater.symm.trans hpath

/-- What a production sends by deletion is its own call, and nothing else is sent with it. -/
theorem Production.Sends.deletes {p : Production} {document : Option Json} {d d' : Desk σ}
    {made : Opening} {first more : List Request} (h : p.Sends document d d' made first more)
    {r : Request} (hr : r ∈ first ++ more) (hdelete : r.method = .delete) :
    (∃ k id, p = .delete k id) ∧ first ++ more = [r] ∧
      Url.parse? (d.client.baseUrl ++ p.path) = some r.url := by
  have hfirst : r ∈ first := by
    rcases List.mem_append.mp hr with hr | hr
    · exact hr
    · obtain ⟨_, -, hpost, -⟩ := h.follows r hr
      cases hdelete.symm.trans hpost
  obtain ⟨hmethod, hurl, -⟩ := h.opens r hfirst
  obtain ⟨k, id, rfl⟩ : ∃ k id, p = .delete k id := by
    have hp := hmethod.symm.trans hdelete
    cases p with
    | delete k id => exact ⟨k, id, rfl⟩
    | _ => cases hp
  have hone : first = [r] := by
    obtain ⟨s, rfl⟩ := List.length_eq_one_iff.mp
      (Nat.le_antisymm h.once (List.length_pos_of_mem hfirst))
    rw [List.mem_singleton.mp hfirst]
  rw [h.alone rfl, hone]
  exact ⟨⟨k, id, rfl⟩, rfl, hurl⟩

/-- A line that the grammar has no production for, or one that a token is missing for, sends nothing
and asks nothing. Any other asks the questions of its production, and if there are lines enough to
answer them, its first call is the production's: the method and the address, with the name as it
stands in the line and the offset in plain digits, and the answers as the fields of the body. A
deletion is sent for a line that says so only, and alone. -/
theorem Console.dispatch_follows_grammar [Host σ] (line : String) (d : Desk σ) :
    let words := Text.words line
    let d' := (d.perform (dispatch line)).2
    let requests := d'.wire.receivedSince d.wire
    ((∀ p, Grammar words p → p.needsToken = true ∧ d.vault.session.token = none) → d.Quiet d') ∧
    (∀ p, Grammar words p → (p.needsToken = true → d.vault.session.token ≠ none) →
      (∀ q, Grammar words q → q = p) ∧
      match p.body? d.typed with
      | none => d'.wire = d.wire
      | some document =>
        (∃ told, d'.events = d.events ++
          List.zipWith (fun q answer => .asked q.prompt q.hidden (some answer)) p.questions
            (d.typed.map Text.trim) ++ told) ∧
        ∃ made first more, p.Sends document d d' made first more) ∧
    ∀ r ∈ requests, r.method = .delete →
      ∃ k id, Grammar words (.delete k id) ∧ d.vault.session.token ≠ none ∧ requests = [r] ∧
        Url.parse? (d.client.baseUrl ++ ("/api/" ++ k.name ++ "/" ++ id)) = some r.url := by
  intro words d' requests
  have htoken : d.vault.session.isAuthenticated = true ↔ d.vault.session.token ≠ none :=
    Option.isSome_iff_ne_none
  have hquiet (h : ∀ p, Grammar words p → p.needsToken = true ∧ d.vault.session.token = none) :
      d.Quiet d' := by
    refine execute_quiet fun p hp => ?_
    obtain ⟨hneeds, hnone⟩ := h p (Grammar.iff_line.mpr hp)
    refine ⟨hneeds, ?_⟩
    rw [Session.isAuthenticated, hnone]
    rfl
  have hsends (p : Production) (hp : Grammar words p)
      (ht : p.needsToken = true → d.vault.session.token ≠ none) :=
    execute_sends (Grammar.iff_line.mp hp) fun hneeds => htoken.mpr (ht hneeds)
  refine ⟨hquiet, fun p hp ht => ⟨fun q hq => ?_, hsends p hp ht⟩, fun r hr hdelete => ?_⟩
  · have hsame := (Grammar.iff_line.mp hq).symm.trans (Grammar.iff_line.mp hp)
    exact Option.some.inj hsame
  · -- A request has been sent, so the line has a production that may be done.
    by_cases hp : ∃ p, Grammar words p ∧ (p.needsToken = true → d.vault.session.token ≠ none)
    · obtain ⟨p, hp, ht⟩ := hp
      have h := hsends p hp ht
      cases hbody : p.body? d.typed with
      | none =>
        rw [hbody] at h
        rw [show requests = [] by simp [requests, Wire.receivedSince, show d'.wire = d.wire from h]]
          at hr
        cases hr
      | some document =>
        rw [hbody] at h
        obtain ⟨-, made, first, more, h⟩ := h
        have hrequests : requests = first ++ more := by
          have hreceived : d'.wire.received = _ := h.received
          simp [requests, Wire.receivedSince, hreceived]
        rw [hrequests] at hr ⊢
        obtain ⟨⟨k, id, rfl⟩, hone, hurl⟩ := h.deletes hr hdelete
        exact ⟨k, id, hp, ht rfl, hone, hurl⟩
    · have h : d.Quiet d' := hquiet fun p hg => by
        have hno : ¬ (p.needsToken = true → d.vault.session.token ≠ none) :=
          fun ht => hp ⟨p, hg, ht⟩
        simpa using hno
      rw [show requests = [] by simp [requests, Wire.receivedSince, h.wire]] at hr
      cases hr

/-- With a token the database is deleted that the line names, and without one nothing happens. -/
theorem Console.named_database_is_deleted :
    let desk (token : String) : Desk (Beside Memory) := ⟨.of "http://api.test" .hmac .failOpen,
      ⟨⟨.empty, .empty []⟩, .hmac, .of "alice" token none⟩, ⟨true, [], .hangUp, []⟩, 0, [], []⟩
    let after (d : Desk (Beside Memory)) := (d.perform (dispatch "RDB delete db1 now")).2
    (desk "").Quiet (after (desk "")) ∧ ∃ r, (after (desk "jwt")).wire.received = [r] ∧
      r.method = .delete ∧ Url.parse? "http://api.test/api/rdb/db1" = some r.url ∧
      r.body = some "\x7b\x7d" := by
  intro desk after
  have hwords : Text.words "RDB delete db1 now" = ["RDB", "delete", "db1", "now"] := by
    decide +kernel
  have hgrammar : Grammar (Text.words "RDB delete db1 now") (.delete .database "db1") := by
    rw [hwords]
    exact .delete (by decide)
  obtain ⟨hquiet, -, -⟩ := dispatch_follows_grammar "RDB delete db1 now" (desk "")
  obtain ⟨-, hsends, -⟩ := dispatch_follows_grammar "RDB delete db1 now" (desk "jwt")
  constructor
  · refine hquiet fun p hp => ?_
    have hsame := (Grammar.iff_line.mp hp).symm.trans (Grammar.iff_line.mp hgrammar)
    rw [Option.some.inj hsame]
    exact ⟨rfl, rfl⟩
  · obtain ⟨-, -, made, first, more, h⟩ := hsends _ hgrammar fun _ => nofun
    have hcount : (after (desk "jwt")).wire.received.length = 1 := by decide +kernel
    obtain ⟨r, hr⟩ := List.length_eq_one_iff.mp hcount
    have hreceived := h.received
    rw [show ((desk "jwt").perform (dispatch "RDB delete db1 now")).2 = after (desk "jwt") from rfl,
      hr, show (desk "jwt").wire.received = [] from rfl, List.nil_append] at hreceived
    rw [h.alone rfl, List.append_nil] at hreceived
    obtain ⟨hmethod, hurl, hbody⟩ := h.opens r (hreceived ▸ List.mem_singleton_self r)
    have haddress : (desk "jwt").client.baseUrl ++ (Production.delete .database "db1").path =
        "http://api.test/api/rdb/db1" := by decide +kernel
    rw [haddress] at hurl
    refine ⟨r, hr, hmethod, hurl, hbody.trans ?_⟩
    decide +kernel

end SignedConsole
