import Mathlib.Data.List.Forall2
import SignedConsole.Proofs.ClientRuns
import SignedConsole.Proofs.ConsoleProcess

namespace SignedConsole

namespace Workers

theorem update_of_dash {line : String} {key : List Char} (h : line.toList = '-' :: key) :
    update? line = if key.isEmpty || key.contains '=' then none
      else some (.remove (String.ofList key)) := by
  rw [update?, h]
  rfl

theorem update_of_other {line : String} (h : line.toList.head? ≠ some '-') :
    update? line = match line.toList.dropWhile (· != '=') with
      | [] => none
      | _ :: value =>
        if (line.toList.takeWhile (· != '=')).isEmpty then none
        else some (.set (String.ofList (line.toList.takeWhile (· != '='))) (String.ofList value)) := by
  unfold update?
  split
  · rename_i key hline
    rw [hline] at h
    exact absurd rfl h
  · rfl

/-- Text is cut at its first equals sign. -/
theorem cut_at_equals {cs key value : List Char} :
    cs.takeWhile (· != '=') = key ∧ cs.dropWhile (· != '=') = '=' :: value ↔
      cs = key ++ '=' :: value ∧ '=' ∉ key := by
  constructor
  · rintro ⟨rfl, hvalue⟩
    constructor
    · rw [← hvalue, List.takeWhile_append_dropWhile]
    · intro hm
      have hno := List.all_eq_true.mp List.all_takeWhile _ hm
      cases hno
  · rintro ⟨rfl, hkey⟩
    have hall : ∀ c ∈ key, (c != '=') = true := fun c hc => by
      simpa using fun h : c = '=' => hkey (h ▸ hc)
    rw [List.takeWhile_append_of_pos hall, List.dropWhile_append_of_pos hall]
    simp

/-- A line that sets a variable: what stands before its first equals sign is the key. -/
theorem update_set {line key value : String} : update? line = some (.set key value) ↔
    line = key ++ "=" ++ value ∧ key ≠ "" ∧ '=' ∉ key.toList ∧ key.toList.head? ≠ some '-' := by
  have hchars : line = key ++ "=" ++ value ↔ line.toList = key.toList ++ '=' :: value.toList := by
    rw [← String.toList_inj, String.toList_append, String.toList_append, List.append_assoc]
    rfl
  rw [hchars]
  constructor
  · intro h
    by_cases hdash : line.toList.head? = some '-'
    · obtain ⟨rest, hline⟩ := List.head?_eq_some_iff.mp hdash
      rw [update_of_dash hline] at h
      split at h <;> cases h
    · rw [update_of_other hdash] at h
      split at h
      · cases h
      · rename_i sign rest hrest
        have hsign : (sign != '=') = false := by
          have hhead := List.head?_dropWhile_not (· != '=') line.toList
          rwa [hrest] at hhead
        rw [show sign = '=' by simpa using hsign] at hrest
        split at h
        · cases h
        · rename_i hne
          cases h
          obtain ⟨hline, hkey⟩ := cut_at_equals.mp ⟨rfl, hrest⟩
          rw [String.toList_ofList, String.toList_ofList]
          refine ⟨hline, by simpa using hne, hkey, fun hd => hdash ?_⟩
          rw [hline, List.head?_append, hd]
          rfl
  · rintro ⟨hline, hne, hkey, hdash⟩
    have hhead : line.toList.head? ≠ some '-' := by
      obtain ⟨c, cs, hkc⟩ := List.exists_cons_of_ne_nil (mt String.toList_eq_nil_iff.mp hne)
      rw [hkc] at hdash
      rw [hline, hkc]
      exact hdash
    obtain ⟨hfront, hrest⟩ := cut_at_equals.mpr ⟨hline, hkey⟩
    rw [update_of_other hhead, hrest]
    dsimp only
    rw [hfront, if_neg (by simpa using hne), String.ofList_toList, String.ofList_toList]

/-- A line that removes a variable. -/
theorem update_remove {line key : String} : update? line = some (.remove key) ↔
    line = "-" ++ key ∧ key ≠ "" ∧ '=' ∉ key.toList := by
  have hchars : line = "-" ++ key ↔ line.toList = '-' :: key.toList := by
    rw [← String.toList_inj, String.toList_append]
    rfl
  rw [hchars]
  constructor
  · intro h
    by_cases hdash : line.toList.head? = some '-'
    · obtain ⟨rest, hline⟩ := List.head?_eq_some_iff.mp hdash
      rw [update_of_dash hline] at h
      split at h
      · cases h
      · rename_i hgood
        cases h
        simp at hgood
        simp [hline, hgood]
    · rw [update_of_other hdash] at h
      split at h
      · cases h
      · split at h <;> cases h
  · rintro ⟨hline, hne, hkey⟩
    rw [update_of_dash hline, if_neg (by simpa using ⟨hne, hkey⟩), String.ofList_toList]

/-- The lines that are read as entries are those before the first empty one. -/
def entries (typed : List String) : List String := (typed.map Text.trim).takeWhile (· != "")

/-- The updates among the entries. -/
def entered (typed : List String) : List VariableUpdate := (entries typed).filterMap update?

/-- What is asked and told for an entry. -/
def entryEvents (entry : String) : List Event :=
  .asked "" false (some entry) ::
    if (update? entry).isSome then []
    else [.printed (.error "Invalid format, use KEY=VALUE or -KEY")]

/-- The prompt that ends the entries, by an empty line or because no line is left. -/
def closing (typed : List String) : Event :=
  .asked "" false (if (entries typed).length < typed.length then some "" else none)

theorem entries_empty {line : String} (rest : List String) (h : Text.trim line = "") :
    entries (line :: rest) = [] := by
  simp [entries, h]

theorem entries_entry {line : String} (rest : List String) (h : Text.trim line ≠ "") :
    entries (line :: rest) = Text.trim line :: entries rest := by
  simp [entries, h]

theorem closing_entry {line : String} (rest : List String) (h : Text.trim line ≠ "") :
    closing (line :: rest) = closing rest := by
  simp [closing, entries_entry rest h]

/-- The entries are read with the line that ends them, and what is no update is refused at once. -/
theorem perform_readUpdatesFrom (d : Desk σ) :
    d.perform (readUpdatesFrom d.typed) = (entered d.typed, { d with
      typed := d.typed.drop ((entries d.typed).length + 1)
      events := d.events ++ (entries d.typed).flatMap entryEvents ++ [closing d.typed] }) := by
  generalize hlines : d.typed = lines
  induction lines generalizing d with
  | nil =>
    rw [readUpdatesFrom, Desk.perform_bind, Console.perform_readLine, hlines]
    obtain ⟨client, vault, wire, now, typed, events⟩ := d
    cases hlines
    simp [entered, entries, closing]
    rfl
  | cons line rest ih =>
    rw [readUpdatesFrom, Desk.perform_bind, Console.perform_readLine, hlines]
    by_cases hempty : Text.trim line = ""
    · simp [hempty, entered, entries_empty rest hempty, closing]
      rfl
    · have hfull : (Text.trim line).isEmpty = false := by simpa using hempty
      simp only [hfull, Bool.false_eq_true, ↓reduceIte]
      rw [entries_entry rest hempty, closing_entry rest hempty]
      cases hu : update? (Text.trim line) with
      | some u =>
        rw [Desk.perform_bind, ih _ rfl]
        change (u :: entered rest, _) = _
        simp [entered, entries_entry rest hempty, hu, entryEvents]
      | none =>
        dsimp only
        rw [Desk.perform_bind, Console.perform_tell, ih _ rfl]
        simp [entered, entries_entry rest hempty, hu, entryEvents]

end Workers

theorem Failure.message_during (task : String) (f : Failure) :
    (Failure.during task f).message = task ++ ": " ++ f.message := by
  have hchain : f.chain ≠ [] := by
    cases f with
    | call e => cases e <;> exact List.cons_ne_nil _ _
    | _ => exact List.cons_ne_nil _ _
  rw [message, chain, String.intercalate_cons_of_ne_nil hchain, message]

/-- The commands that send updates of a worker. -/
inductive Batch where
  | environment
  | secrets

namespace Batch

open Workers

/-- What a reply lists. -/
def Entry : Batch → Type
  | environment => String × String
  | secrets => String

def make : (b : Batch) → String → VariableUpdate → Call (List b.Entry)
  | environment => Call.setVariable
  | secrets => Call.setSecret

/-- The word that the command is named by. -/
def name : Batch → String
  | environment => "env:set"
  | secrets => "secret:set"

def command : Batch → String → WorkerCommand
  | environment => .setVariables
  | secrets => .setSecrets

/-- What stands behind the worker in the address. -/
def place : Batch → String
  | environment => "/env"
  | secrets => "/secret"

def task : Batch → String
  | environment => "Failed to set env"
  | secrets => "Failed to set secrets"

def heading : Batch → String
  | environment => "Enter env vars (KEY=VALUE, -KEY to remove), empty line to finish:"
  | secrets => "Enter secrets (KEY=VALUE, -KEY to remove), empty line to finish:"

def cancelled : Batch → String
  | environment => "No env vars provided, cancelled"
  | secrets => "No secrets provided, cancelled"

def success : Batch → String
  | environment => "Env updated, syncing to cluster..."
  | secrets => "Secrets updated, syncing to cluster..."

def line : (b : Batch) → b.Entry → Line
  | environment => variableLine
  | secrets => secretLine

theorem run_command (b : Batch) (id : String) : Workers.run (σ := σ) (.ok (b.command id)) =
    Console.attempt b.task (do
      let updates ← Attempt.surely (readUpdates b.heading)
      if updates.isEmpty then Attempt.tell [.warning b.cancelled]
      else
        let stored ← sendUpdates (b.make id) [] updates
        Attempt.tell (.success b.success :: stored.map b.line)) := by
  cases b <;> rfl

/-- Makes the call for an update, for the session of a desk and by a clock. -/
def post (b : Batch) (id : String) (d : Desk σ) (now : Clock) (u : VariableUpdate) (w : Wire) :
    Except CallError (List b.Entry) × Wire :=
  d.client.run now.shown d.vault.session (b.make id u) w

/-- The clock once the call for an update has been made. -/
def tick (b : Batch) (id : String) (d : Desk σ) (now : Clock) (u : VariableUpdate) : Clock :=
  d.client.clockAfter now d.vault.session (b.make id u)

/-- Updates that are sent in order on one wire and by one clock, each of them with a reply. -/
inductive Accepted (b : Batch) (id : String) (d : Desk σ) : Clock → Wire →
    List VariableUpdate → List (List b.Entry) → Clock → Wire → Prop where
  | none (now : Clock) (w : Wire) : Accepted b id d now w [] [] now w
  | more {u : VariableUpdate} {us : List VariableUpdate} {reply : List b.Entry}
      {replies : List (List b.Entry)} {now now' : Clock} {w w₁ w' : Wire}
      (h : b.post id d now u w = (.ok reply, w₁))
      (later : Accepted b id d (b.tick id d now u) w₁ us replies now' w') :
      Accepted b id d now w (u :: us) (reply :: replies) now' w'

/-- The request that an update is posted with. -/
structure Carries (b : Batch) (id : String) (c : Client) (u : VariableUpdate) (r : Request) :
    Prop where
  method : r.method = .post
  url : Url.parse? (c.baseUrl ++ ("/api/worker/" ++ id ++ b.place)) = some r.url
  body : r.body = some (Json.print u.toJson)

/-- A post sends its update, as often as its outcome says. -/
theorem post_requests (b : Batch) (id : String) (d : Desk σ) (now : Clock) (u : VariableUpdate)
    (w : Wire) : ∃ sent, (b.post id d now u w).2.received = w.received ++ sent ∧
      (∀ r ∈ sent, b.Carries id d.client u r) ∧ Client.Counted (b.post id d now u w).1 sent := by
  refine ⟨_, Client.run_received .., fun r hr => ?_, Client.run_counted ..⟩
  obtain ⟨hmethod, hurl, hbody⟩ := Client.run_fields r hr
  cases b <;> exact ⟨hmethod, hurl, hbody⟩

variable {b : Batch} {id : String} {d : Desk σ} {now now' : Clock} {w w' : Wire}

/-- Updates that are accepted are posted once each, in order. -/
theorem Accepted.requests {us : List VariableUpdate} {replies : List (List b.Entry)}
    (h : b.Accepted id d now w us replies now' w') : ∃ requests,
      w'.received = w.received ++ requests ∧ List.Forall₂ (b.Carries id d.client) us requests := by
  induction h with
  | none now w => exact ⟨[], by simp, .nil⟩
  | @more u us reply replies now _ w w₁ w' h _ ih =>
    obtain ⟨requests, hreceived, hcarries⟩ := ih
    obtain ⟨sent, hsent, hfirst, hcounted⟩ := b.post_requests id d now u w
    rw [h] at hsent hcounted
    obtain ⟨r, rfl⟩ := List.length_eq_one_iff.mp (hcounted.answered reply rfl)
    refine ⟨r :: requests, ?_, .cons (hfirst r List.mem_cons_self) hcarries⟩
    rw [hreceived, hsent, List.append_assoc]
    rfl

/-- Updates are sent in order until one fails. -/
theorem perform_sendUpdates (b : Batch) (id : String) (d : Desk σ) (us : List VariableUpdate)
    (last : List b.Entry) (now : Clock) (w : Wire) (typed : List String) (events : List Event) :
    (∃ replies now' w', b.Accepted id d now w us replies now' w' ∧
      Desk.perform { d with typed, events, now, wire := w } (sendUpdates (b.make id) last us).run =
        (.ok (replies.getLastD last), { d with typed, events, now := now', wire := w' })) ∨
    ∃ done u rest replies now₁ w₁ e w', us = done ++ u :: rest ∧
      b.Accepted id d now w done replies now₁ w₁ ∧ b.post id d now₁ u w₁ = (.error e, w') ∧
      Desk.perform { d with typed, events, now, wire := w } (sendUpdates (b.make id) last us).run =
        (.error (.during u.key (.call e)),
          { d with typed, events, now := b.tick id d now₁ u, wire := w' }) := by
  induction us generalizing last now w with
  | nil => exact Or.inl ⟨[], now, w, .none now w, rfl⟩
  | cons u us ih =>
    rw [sendUpdates, Attempt.perform_bind, Attempt.perform_during, Attempt.call_run, Desk.called]
    cases hpost : b.post id d now u w with
    | mk outcome w₁ =>
      have hcall : d.client.run now.shown d.vault.session (b.make id u) w = (outcome, w₁) := hpost
      simp only [hcall]
      cases outcome with
      | error e => exact Or.inr ⟨[], u, us, [], now, w, e, w₁, rfl, .none now w, hpost, rfl⟩
      | ok reply =>
        rcases ih reply (b.tick id d now u) w₁ with ⟨replies, now', w', ha, hran⟩ |
          ⟨done, v, rest, replies, now₂, w₂, e, w', rfl, ha, hv, hran⟩
        · refine Or.inl ⟨reply :: replies, now', w', .more hpost ha, ?_⟩
          rw [List.getLastD_cons]
          exact hran
        · exact Or.inr ⟨u :: done, v, rest, reply :: replies, now₂, w₂, e, w', rfl,
            .more hpost ha, hv, hran⟩

/-- What a batch comes to for the updates that are entered: what it tells in the end, and the clock
and the wire that it leaves. -/
inductive Ending (b : Batch) (id : String) (d : Desk σ) :
    List VariableUpdate → List Line → Clock → Wire → Prop where
  | cancelled : Ending b id d [] [.warning b.cancelled] d.now d.wire
  | finished {us : List VariableUpdate} {replies : List (List b.Entry)} {now' : Clock} {w' : Wire}
      (hus : us ≠ []) (h : b.Accepted id d d.now d.wire us replies now' w') :
      Ending b id d us (.success b.success :: (replies.getLastD []).map b.line) now' w'
  | stopped {done rest : List VariableUpdate} {u : VariableUpdate}
      {replies : List (List b.Entry)} {now : Clock} {w w' : Wire} {e : CallError}
      (h : b.Accepted id d d.now d.wire done replies now w)
      (hu : b.post id d now u w = (.error e, w')) :
      Ending b id d (done ++ u :: rest)
        [.error (b.task ++ ": " ++ u.key ++ ": " ++ (Failure.call e).message)]
        (b.tick id d now u) w'

/-- The desk once the entries have been read under their heading. -/
def heard (b : Batch) (d : Desk σ) : Desk σ :=
  { d with
    typed := d.typed.drop ((entries d.typed).length + 1)
    events := d.events ++ .printed (.info b.heading) ::
      ((entries d.typed).flatMap entryEvents ++ [closing d.typed]) }

theorem perform_readUpdates (b : Batch) (d : Desk σ) :
    d.perform (readUpdates b.heading) = (entered d.typed, b.heard d) := by
  rw [readUpdates, Desk.perform_bind, Console.perform_tell]
  change Desk.perform _ (readUpdatesFrom (Desk.typed { d with
    events := d.events ++ [.printed (.info b.heading)] })) = _
  rw [perform_readUpdatesFrom]
  simp [heard]

theorem perform_run (b : Batch) (id : String) (d : Desk σ) : ∃ told now' w',
    b.Ending id d (entered d.typed) told now' w' ∧
    (d.perform (Workers.run (.ok (b.command id)))).2 = { b.heard d with
      events := (b.heard d).events ++ told.map Event.printed
      now := now'
      wire := w' } := by
  rw [run_command, Console.perform_attempt, Attempt.perform_bind, Attempt.surely_run,
    perform_readUpdates]
  dsimp only
  cases hus : entered d.typed with
  | nil => exact ⟨_, _, _, .cancelled, rfl⟩
  | cons u us =>
    simp only [List.isEmpty_cons, Bool.false_eq_true, ↓reduceIte]
    rw [Attempt.perform_bind]
    rcases b.perform_sendUpdates id d (u :: us) [] d.now d.wire (b.heard d).typed
        (b.heard d).events with ⟨replies, now', w', ha, hran⟩ |
      ⟨done, v, rest, replies, now, w, e, w', hcut, ha, hv, hran⟩
    · replace hran : (b.heard d).perform _ = _ := hran
      refine ⟨_, now', w', .finished (List.cons_ne_nil u us) ha, ?_⟩
      rw [hran]
      rfl
    · replace hran : (b.heard d).perform _ = _ := hran
      have hwhy : (Failure.during b.task (.during v.key (.call e))).message =
          b.task ++ ": " ++ v.key ++ ": " ++ (Failure.call e).message := by
        simp only [Failure.message_during, String.append_assoc]
      have hending : b.Ending id d (done ++ v :: rest) _ _ w' := .stopped ha hv
      rw [← hcut] at hending
      refine ⟨_, _, w', hending, ?_⟩
      rw [hran]
      dsimp only
      rw [Console.perform_tell, hwhy]
      rfl

/-- The line that names a batch and a worker. -/
theorem ofLine_eq (b : Batch) {line first id : String} {more : List String}
    (hline : Text.words line = first :: b.name :: id :: more) (hfirst : Text.lower first = "worker") :
    Command.ofLine line = .workers (.ok (b.command id)) := by
  rw [Command.ofLine, hline, Command.ofWords, hfirst]
  cases b <;> rfl

theorem Ending.nothing_sent {told : List Line} (h : b.Ending id d [] told now' w') :
    w' = d.wire := by
  generalize hall : ([] : List VariableUpdate) = all at h
  cases h with
  | cancelled => rfl
  | finished hus _ => exact absurd hall.symm hus
  | stopped _ _ => simp at hall

/-- Each of the requests that updates are posted with carries one of them. -/
theorem Carries.of_all {c : Client} {us : List VariableUpdate} {requests : List Request}
    (h : List.Forall₂ (b.Carries id c) us requests) : ∀ r ∈ requests, ∃ u, b.Carries id c u r := by
  induction h with
  | nil => exact nofun
  | cons hr _ ih =>
    intro r hm
    rcases List.mem_cons.mp hm with rfl | hm
    · exact ⟨_, hr⟩
    · exact ih r hm

/-- Updates that are entered: the first of them is posted first. -/
theorem Ending.opens {u : VariableUpdate} {us : List VariableUpdate} {told : List Line}
    (h : b.Ending id d (u :: us) told now' w') : ∃ more,
      w'.received = (b.post id d d.now u d.wire).2.received ++ more ∧
      ∀ r ∈ more, ∃ v, b.Carries id d.client v r := by
  generalize hall : u :: us = all at h
  cases h with
  | cancelled => cases hall
  | finished _ ha =>
    subst hall
    cases ha with
    | more hpost later =>
      obtain ⟨requests, hreceived, hcarries⟩ := later.requests
      rw [hpost]
      exact ⟨requests, hreceived, Carries.of_all hcarries⟩
  | @stopped done rest v replies now w _ e ha hv =>
    cases ha with
    | none =>
      cases hall
      rw [hv]
      exact ⟨[], (List.append_nil _).symm, nofun⟩
    | @more u' us' _ _ _ _ _ w₁ _ hpost later =>
      cases hall
      obtain ⟨requests, hreceived, hcarries⟩ := later.requests
      obtain ⟨last, hlast, hlastCarries, -⟩ := b.post_requests id d now v w
      rw [hv] at hlast
      rw [hpost]
      refine ⟨requests ++ last, ?_, fun r hr => ?_⟩
      · rw [hlast, hreceived, List.append_assoc]
      · rcases List.mem_append.mp hr with hr | hr
        · exact Carries.of_all hcarries r hr
        · exact ⟨v, hlastCarries r hr⟩

end Batch

theorem Batch.perform_dispatch [Host σ] (b : Batch) {line first id : String} {more : List String}
    (hline : Text.words line = first :: b.name :: id :: more) (hfirst : Text.lower first = "worker")
    (d : Desk σ) (htoken : d.vault.session.isAuthenticated = true) :
    (d.perform (Console.dispatch line)).2 =
      (d.perform (Workers.run (.ok (b.command id)))).2 := by
  rw [Console.dispatch, b.ofLine_eq hline hfirst]
  change (d.perform (Console.authenticated _)).2 = _
  rw [Console.perform_authenticated _ htoken]

/-- A batch reads the lines up to the first empty one and refuses those that are no updates. It
posts the updates in order, one request each, up to the first that fails, and tells either how that
one failed or what the last reply lists. A line sets what stands before its first equals sign, or
removes what stands behind a dash. -/
theorem Console.batch_posts_entries [Host σ] (b : Batch) {line first id : String}
    {more : List String} (hline : Text.words line = first :: b.name :: id :: more)
    (hfirst : Text.lower first = "worker") (d : Desk σ)
    (htoken : d.vault.session.isAuthenticated = true) :
    (∀ entry key value, Workers.update? entry = some (.set key value) ↔
      entry = key ++ "=" ++ value ∧ key ≠ "" ∧ '=' ∉ key.toList ∧ key.toList.head? ≠ some '-') ∧
    (∀ entry key, Workers.update? entry = some (.remove key) ↔
      entry = "-" ++ key ∧ key ≠ "" ∧ '=' ∉ key.toList) ∧
    let entries := (d.typed.map Text.trim).takeWhile (· != "")
    let updates := entries.filterMap Workers.update?
    let d' := (d.perform (dispatch line)).2
    d'.typed = d.typed.drop (entries.length + 1) ∧ d'.vault = d.vault ∧
    ∃ told requests,
      d'.events = d.events ++ .printed (.info b.heading) ::
        (entries.flatMap (fun entry => .asked "" false (some entry) ::
          if (Workers.update? entry).isSome then []
          else [.printed (.error "Invalid format, use KEY=VALUE or -KEY")]) ++
        [.asked "" false (if entries.length < d.typed.length then some "" else none)]) ++
        told.map Event.printed ∧
      d'.wire.received = d.wire.received ++ requests ∧
      if updates = [] then told = [.warning b.cancelled] ∧ d'.now = d.now ∧ d'.wire = d.wire
      else
        (∃ replies, b.Accepted id d d.now d.wire updates replies d'.now d'.wire ∧
          List.Forall₂ (b.Carries id d.client) updates requests ∧
          told = .success b.success :: (replies.getLastD []).map b.line) ∨
        ∃ done u rest replies now w e sent last, updates = done ++ u :: rest ∧
          b.Accepted id d d.now d.wire done replies now w ∧
          b.post id d now u w = (.error e, d'.wire) ∧ d'.now = b.tick id d now u ∧
          requests = sent ++ last ∧ List.Forall₂ (b.Carries id d.client) done sent ∧
          (∀ r ∈ last, b.Carries id d.client u r) ∧
          Client.Counted (Except.error e : Except CallError (List b.Entry)) last ∧
          told = [.error (b.task ++ ": " ++ u.key ++ ": " ++ (Failure.call e).message)] := by
  refine ⟨fun _ _ _ => Workers.update_set, fun _ _ => Workers.update_remove, ?_⟩
  intro entries updates d'
  obtain ⟨told, now', w', hending, hrun⟩ := b.perform_run id d
  have hd' : d' = _ := (b.perform_dispatch hline hfirst d htoken).trans hrun
  rw [hd']
  change b.Ending id d updates told now' w' at hending
  clear_value updates
  cases hending with
  | cancelled => exact ⟨rfl, rfl, _, [], rfl, (List.append_nil _).symm, by simp⟩
  | finished hus ha =>
    obtain ⟨requests, hreceived, hcarries⟩ := ha.requests
    refine ⟨rfl, rfl, _, requests, rfl, hreceived, ?_⟩
    rw [if_neg hus]
    exact Or.inl ⟨_, ha, hcarries, rfl⟩
  | @stopped done rest u replies now w _ e ha hu =>
    obtain ⟨sent, hsent, hcarries⟩ := ha.requests
    obtain ⟨last, hlast, hcarried, hcounted⟩ := b.post_requests id d now u w
    rw [hu] at hlast hcounted
    refine ⟨rfl, rfl, _, sent ++ last, rfl, ?_, ?_⟩
    · change w'.received = _
      rw [hlast, hsent, List.append_assoc]
    · rw [if_neg (by simp)]
      exact Or.inr ⟨done, u, rest, replies, now, w, e, sent, last, rfl, ha, hu, rfl, rfl, hcarries,
        hcarried, hcounted, rfl⟩

/-- Two updates are posted. The line between them is none, and the one behind the empty line is
left. -/
theorem Console.two_entries_are_posted :
    let d : Desk (Beside Memory) := ⟨.of "http://api.test" .hmac .failOpen,
      ⟨⟨.empty, .empty []⟩, .hmac, .of "alice" "jwt" none⟩,
      ⟨true, [.reply 200 (Text.utf8 "\x7b\x7d"), .reply 200 (Text.utf8 "\x7b\x7d")], .hangUp, []⟩, 0,
      [" A=1=2 ", "=B", "-B", "", "-C"], []⟩
    let d' := (d.perform (dispatch "Worker env:set w1 now")).2
    d'.typed = ["-C"] ∧ ∃ first second, d'.wire.received = [first, second] ∧
      Batch.environment.Carries "w1" d.client (.set "A" "1=2") first ∧
      Batch.environment.Carries "w1" d.client (.remove "B") second := by
  intro d d'
  have hline : Text.words "Worker env:set w1 now" =
      "Worker" :: Batch.environment.name :: "w1" :: ["now"] := by decide +kernel
  obtain ⟨-, -, hd'⟩ := batch_posts_entries .environment hline (by decide) d rfl
  have hentries : (d.typed.map Text.trim).takeWhile (· != "") = ["A=1=2", "=B", "-B"] := by
    decide +kernel
  have hupdates : ["A=1=2", "=B", "-B"].filterMap Workers.update? =
      [.set "A" "1=2", .remove "B"] := by decide +kernel
  have hlast : d'.events.getLast? =
      some (.printed (.success "Env updated, syncing to cluster...")) := by decide +kernel
  dsimp only at hd'
  rw [hentries, hupdates,
    show (d.perform (dispatch "Worker env:set w1 now")).2 = d' from rfl] at hd'
  clear_value d'
  obtain ⟨htyped, -, told, requests, hevents, hreceived, h⟩ := hd'
  refine ⟨htyped, ?_⟩
  rw [if_neg (List.cons_ne_nil _ _)] at h
  rw [show d.wire.received = [] from rfl, List.nil_append] at hreceived
  rcases h with ⟨_, _, hcarries, -⟩ | ⟨_, _, _, _, _, _, _, _, _, -, -, -, -, -, -, -, -, htold⟩
  · cases hcarries with
    | cons hfirst hcarries =>
      cases hcarries with
      | cons hsecond hcarries =>
        cases hcarries
        exact ⟨_, _, hreceived, hfirst, hsecond⟩
  · have hsame := hlast.symm.trans (congrArg List.getLast? hevents)
    rw [htold, List.map_cons, List.map_nil, List.getLast?_concat] at hsame
    cases hsame

end SignedConsole
