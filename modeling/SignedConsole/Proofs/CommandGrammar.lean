import SignedConsole.Proofs.BatchUpdates
import SignedConsole.Proofs.ResourceTargets

namespace SignedConsole

/-- The word that lists what a batch changes. -/
def Batch.word : Batch → String
  | environment => "env"
  | secrets => "secret"

/-- What a line asks for. -/
inductive Production where
  | register
  | login
  | resetPassword
  | status
  | list (k : Kind)
  | add (k : Kind)
  | get (k : Kind) (id : String)
  /-- A worker, with its versions behind an offset. -/
  | page (id : String) (offset : Nat)
  | delete (k : Kind) (id : String)
  | entries (b : Batch) (id : String)
  | updates (b : Batch) (id : String)

/-- A word that spells a number of 64 bits: one or more digits, with or without a plus sign. -/
def SpellsOffset (word : String) (n : Nat) : Prop :=
  ∃ digits : List Char, (word.toList = digits ∨ word.toList = '+' :: digits) ∧ digits ≠ [] ∧
    (∀ c ∈ digits, '0' ≤ c ∧ c ≤ '9') ∧ Text.digitsValue digits = n ∧ n ≤ maxNat64

/-- The words of the lines that ask for something. The first is taken in any case, the others as
they are, and more words do not count. -/
inductive Grammar : List String → Production → Prop where
  | register {first : String} {more : List String} (h : Text.lower first = "register") :
      Grammar (first :: more) .register
  | login {first : String} {more : List String} (h : Text.lower first = "login") :
      Grammar (first :: more) .login
  | resetPassword {first : String} {more : List String}
      (h : Text.lower first = "reset-password") : Grammar (first :: more) .resetPassword
  | status {first : String} {more : List String} (h : Text.lower first = "status") :
      Grammar (first :: more) .status
  | list {first : String} {more : List String} {k : Kind} (h : Text.lower first = k.name) :
      Grammar (first :: "list" :: more) (.list k)
  | add {first : String} {more : List String} {k : Kind} (h : Text.lower first = k.name) :
      Grammar (first :: "add" :: more) (.add k)
  | get {first id : String} {more : List String} {k : Kind} (h : Text.lower first = k.name)
      (hk : k = .database ∨ k = .domain) : Grammar (first :: "get" :: id :: more) (.get k id)
  | delete {first id : String} {more : List String} {k : Kind} (h : Text.lower first = k.name) :
      Grammar (first :: "delete" :: id :: more) (.delete k id)
  | worker {first id : String} (h : Text.lower first = "worker") :
      Grammar [first, "get", id] (.page id 0)
  | page {first id word : String} {more : List String} {n : Nat}
      (h : Text.lower first = "worker") (hn : SpellsOffset word n) :
      Grammar (first :: "get" :: id :: word :: more) (.page id n)
  | entries {first id : String} {more : List String} {b : Batch}
      (h : Text.lower first = "worker") : Grammar (first :: b.word :: id :: more) (.entries b id)
  | updates {first id : String} {more : List String} {b : Batch}
      (h : Text.lower first = "worker") : Grammar (first :: b.name :: id :: more) (.updates b id)

/-- The digits of a word, behind its plus sign if it has one. -/
def unsignedDigits (word : String) : List Char :=
  match word.toList with
  | '+' :: digits => digits
  | digits => digits

theorem nat64_of_digits (word : String) : nat64? word =
    if (unsignedDigits word).isEmpty || !(unsignedDigits word).all Text.isDigit then none
    else if Text.digitsValue (unsignedDigits word) ≤ maxNat64 then
      some (Text.digitsValue (unsignedDigits word))
    else none := rfl

theorem unsignedDigits_spelled (word : String) :
    word.toList = unsignedDigits word ∨ word.toList = '+' :: unsignedDigits word := by
  unfold unsignedDigits
  split
  · rename_i digits h
    exact Or.inr h
  · exact Or.inl rfl

theorem unsignedDigits_eq {word : String} {digits : List Char}
    (h : word.toList = digits ∨ word.toList = '+' :: digits)
    (hdigits : ∀ c ∈ digits, '0' ≤ c ∧ c ≤ '9') : unsignedDigits word = digits := by
  unfold unsignedDigits
  rcases h with h | h
  · rw [h]
    split
    · exact absurd (hdigits '+' List.mem_cons_self).1 (by decide)
    · rfl
  · rw [h]
    rfl

theorem nat64_spelled {word : String} {n : Nat} : nat64? word = some n ↔ SpellsOffset word n := by
  have hall : (unsignedDigits word).all Text.isDigit = true ↔
      ∀ c ∈ unsignedDigits word, '0' ≤ c ∧ c ≤ '9' := by
    simp [Text.isDigit]
  rw [nat64_of_digits]
  constructor
  · intro h
    split at h
    · cases h
    · rename_i hgood
      rw [Bool.or_eq_true, not_or, Bool.not_eq_true', Bool.not_eq_false] at hgood
      split at h
      · rename_i hle
        refine ⟨_, unsignedDigits_spelled word, by simpa using hgood.1, hall.mp hgood.2, ?_, ?_⟩
        · exact Option.some.inj h
        · exact Option.some.inj h ▸ hle
      · cases h
  · rintro ⟨digits, hword, hne, hdigits, rfl, hle⟩
    obtain rfl := unsignedDigits_eq hword hdigits
    rw [if_neg (by simp [hne, hall.mpr hdigits]), if_pos hle]

def DatabaseCommand.production : DatabaseCommand → Production
  | list => .list .database
  | get id => .get .database id
  | add => .add .database
  | delete id => .delete .database id

def StoreCommand.production : StoreCommand → Production
  | list => .list .store
  | add => .add .store
  | delete id => .delete .store id

def WorkerCommand.production : WorkerCommand → Production
  | .list => .list .worker
  | .add => .add .worker
  | .get id offset => .page id offset
  | .delete id => .delete .worker id
  | .variables id => .entries .environment id
  | .setVariables id => .updates .environment id
  | .secrets id => .entries .secrets id
  | .setSecrets id => .updates .secrets id

def DomainCommand.production : DomainCommand → Production
  | list => .list .domain
  | add => .add .domain
  | get id => .get .domain id
  | delete id => .delete .domain id

/-- What a command asks the platform for, if it asks at all. -/
def Command.production? : Command → Option Production
  | register => some .register
  | login => some .login
  | resetPassword => some .resetPassword
  | status => some .status
  | databases c => c.toOption.map DatabaseCommand.production
  | stores c => c.toOption.map StoreCommand.production
  | workers c => c.toOption.map WorkerCommand.production
  | domains c => c.toOption.map DomainCommand.production
  | nothing | help | clear | logout | whoami | leave | unknown _ => none

section
variable {first : String} {args : List String}

theorem DatabaseCommand.ofWords_grammar {c : DatabaseCommand} (h : ofWords args = .ok c)
    (hfirst : Text.lower first = "rdb") : Grammar (first :: args) c.production := by
  unfold ofWords at h
  split at h <;> cases h
  · exact .list hfirst
  · exact .get hfirst (Or.inl rfl)
  · exact .add hfirst
  · exact .delete hfirst

theorem StoreCommand.ofWords_grammar {c : StoreCommand} (h : ofWords args = .ok c)
    (hfirst : Text.lower first = "kv") : Grammar (first :: args) c.production := by
  unfold ofWords at h
  split at h <;> cases h
  · exact .list hfirst
  · exact .add hfirst
  · exact .delete hfirst

theorem WorkerCommand.ofWords_grammar {c : WorkerCommand} (h : ofWords args = .ok c)
    (hfirst : Text.lower first = "worker") : Grammar (first :: args) c.production := by
  unfold ofWords at h
  split at h
  · cases h
    exact .list hfirst
  · cases h
    exact .add hfirst
  · cases h
    exact .worker hfirst
  · rename_i id offset more
    split at h <;> cases h
    rename_i n hn
    exact .page hfirst (nat64_spelled.mp hn)
  · cases h
    exact .delete hfirst
  · cases h
    exact .entries (b := .environment) hfirst
  · cases h
    exact .updates (b := .environment) hfirst
  · cases h
    exact .entries (b := .secrets) hfirst
  · cases h
    exact .updates (b := .secrets) hfirst
  · split at h <;> cases h
  · cases h

theorem DomainCommand.ofWords_grammar {c : DomainCommand} (h : ofWords args = .ok c)
    (hfirst : Text.lower first = "domain") : Grammar (first :: args) c.production := by
  unfold ofWords at h
  split at h <;> cases h
  · exact .list hfirst
  · exact .add hfirst
  · exact .get hfirst (Or.inr rfl)
  · exact .delete hfirst

end

theorem OrUsage.production_ok {c : OrUsage γ} {production : γ → Production} {p : Production}
    (h : c.toOption.map production = some p) : ∃ a, c = .ok a ∧ production a = p := by
  cases c with
  | error usage => cases h
  | ok a => exact ⟨a, rfl, Option.some.inj h⟩

/-- The grammar is what lines are read by. -/
theorem Grammar.iff_command {words : List String} {p : Production} :
    Grammar words p ↔ (Command.ofWords words).production? = some p := by
  constructor
  · intro h
    cases h with
    | register h | login h | resetPassword h | status h => rw [Command.ofWords, h]; rfl
    | @list _ _ k h | @add _ _ k h | @delete _ _ _ k h =>
      rw [Command.ofWords, h]
      cases k <;> rfl
    | get h hk =>
      rw [Command.ofWords, h]
      rcases hk with rfl | rfl <;> rfl
    | worker h => rw [Command.ofWords, h]; rfl
    | @page _ id word more n h hn =>
      have hread : WorkerCommand.ofWords ("get" :: id :: word :: more) = .ok (.get id n) := by
        rw [WorkerCommand.ofWords, nat64_spelled.mpr hn]
      rw [Command.ofWords, h]
      change (Except.toOption _).map _ = _
      rw [hread]
      rfl
    | @entries _ _ _ b h | @updates _ _ _ b h =>
      rw [Command.ofWords, h]
      cases b <;> rfl
  · intro h
    unfold Command.ofWords at h
    split at h
    · cases h
    · rename_i first args
      split at h
      case h_3 hfirst =>
        cases h
        exact .register hfirst
      case h_4 hfirst =>
        cases h
        exact .login hfirst
      case h_6 hfirst =>
        cases h
        exact .resetPassword hfirst
      case h_8 hfirst =>
        cases h
        exact .status hfirst
      case h_11 hfirst =>
        obtain ⟨c, hc, rfl⟩ := OrUsage.production_ok h
        exact DatabaseCommand.ofWords_grammar hc hfirst
      case h_12 hfirst =>
        obtain ⟨c, hc, rfl⟩ := OrUsage.production_ok h
        exact StoreCommand.ofWords_grammar hc hfirst
      case h_13 hfirst =>
        obtain ⟨c, hc, rfl⟩ := OrUsage.production_ok h
        exact WorkerCommand.ofWords_grammar hc hfirst
      case h_14 hfirst =>
        obtain ⟨c, hc, rfl⟩ := OrUsage.production_ok h
        exact DomainCommand.ofWords_grammar hc hfirst
      all_goals cases h

end SignedConsole
