import SignedConsole.Json.Basic
import SignedConsole.Rounding

namespace SignedConsole.Json

/-- A whole part as a significand that fits 64 bits, with the number of digits left out. -/
def significand (n : Nat) : List Char → Nat × Nat
  | [] => (n, 0)
  | d :: ds =>
    let next := 10 * n + (d.toNat - 48)
    if next < Nat.pow 2 64 then significand next ds else (n, (d :: ds).length)

/-- The significand goes on into the fraction as far as it fits. -/
def fractionSignificand (n : Nat) : List Char → Nat × Nat
  | [] => (n, 0)
  | d :: ds =>
    let next := 10 * n + (d.toNat - 48)
    if next < Nat.pow 2 64 then
      let (m, count) := fractionSignificand next ds
      (m, count + 1)
    else (n, 0)

/-- Whether `n · 10 ^ e` lies beyond the doubles, both factors and their product being rounded. -/
def beyondDouble (n : Nat) (e : Int) : Bool :=
  n ≠ 0 && 0 ≤ e &&
    (308 < e ||
      Nat.pow 2 1024 ≤ Rounding.double (Rounding.double n * Rounding.double (Nat.pow 10 e.toNat)))

/-- Whether a literal denotes a number: a whole number of 64 bits, or one that doubles reach. -/
def Number.isFinite (n : Number) : Bool :=
  let (whole, left) := significand 0 n.whole
  let (all, places) := fractionSignificand whole n.fraction
  match n.exponent with
  | none => (n.fraction.isEmpty && left == 0) || !beyondDouble all (left - places)
  | some (negative, digits) =>
    let e := Text.digitsValue digits
    if Nat.pow 2 31 ≤ e then negative || all == 0
    else !beyondDouble all (left - places + if negative then -(e : Int) else e)

mutual

/-- Whether all texts of a document are texts and all its numbers finite. -/
def isSound : Json → Bool
  | .null => true
  | .bool _ => true
  | .number n => n.isFinite
  | .text t => t.isSome
  | .array items => itemsSound items
  | .object members => membersSound members

def itemsSound : List Json → Bool
  | [] => true
  | v :: vs => isSound v && itemsSound vs

def membersSound : List (Option String × Json) → Bool
  | [] => true
  | m :: ms => memberSound m && membersSound ms

def memberSound : Option String × Json → Bool
  | (k, v) => k.isSome && isSound v

end

mutual

/-- How many arrays and objects lie inside each other. -/
def depth : Json → Nat
  | .null => 0
  | .bool _ => 0
  | .number _ => 0
  | .text _ => 0
  | .array items => itemsDepth items + 1
  | .object members => membersDepth members + 1

def itemsDepth : List Json → Nat
  | [] => 0
  | v :: vs => max (depth v) (itemsDepth vs)

def membersDepth : List (Option String × Json) → Nat
  | [] => 0
  | m :: ms => max (memberDepth m) (membersDepth ms)

def memberDepth : Option String × Json → Nat
  | (_, v) => depth v

end

/-- The deepest nesting that a free value may have. -/
def depthLimit : Nat := 127

/-- Whether a document is accepted where any value may stand. -/
def isValue (j : Json) : Bool := j.isSound && j.depth ≤ depthLimit

/-- The last member of that name. -/
def lastMember? (name : String) : Json → Option Json
  | .object members => (members.reverse.find? fun m => m.1 == some name).map (·.2)
  | _ => none

/-- The text of a string literal. -/
def text? : Json → Option String
  | .text t => t
  | _ => none

/-- A whole number up to `limit`, without sign, fraction or exponent. -/
def natUpTo? (limit : Nat) : Json → Option Nat
  | .number ⟨false, whole, [], none⟩ =>
    let n := Text.digitsValue whole
    if n ≤ limit then some n else none
  | _ => none

/-- A whole number of 64 bits with a sign. Minus zero is none. -/
def int64? : Json → Option Int
  | .number ⟨negative, whole, [], none⟩ =>
    let n := Text.digitsValue whole
    if negative then
      if n ≠ 0 && n ≤ Nat.pow 2 63 then some (-(n : Int)) else none
    else if n < Nat.pow 2 63 then some n else none
  | _ => none

/-- Reads null as nothing. -/
def option? (read : Json → Option α) : Json → Option (Option α)
  | .null => some none
  | j => (read j).map some

def list? (read : Json → Option α) : Json → Option (List α)
  | .array items => items.mapM read
  | _ => none

/-- A name of the table, alone or as an object that gives it null. -/
def name? (table : List (String × α)) : Json → Option α
  | .text (some s) => table.lookup s
  | .object [(some s, .null)] => table.lookup s
  | _ => none

/-- Puts a key into a list with ascending keys, over what it had before. -/
def insertKey (k v : String) : List (String × String) → List (String × String)
  | [] => [(k, v)]
  | m :: ms =>
    if k < m.1 then (k, v) :: m :: ms
    else if k == m.1 then (k, v) :: ms
    else m :: insertKey k v ms

/-- An object of texts with its keys ascending. Of equal keys the last one counts. -/
def textMap? : Json → Option (List (String × String))
  | .object members => do
    let pairs ← members.mapM fun m => return (← m.1, ← m.2.text?)
    return pairs.foldl (fun table m => insertKey m.1 m.2 table) []
  | _ => none

/-- The fields of a record, by name. An object gives each of them at most once and may have members
of other names, with anything in them; a list gives them in order, and the last ones may lack. -/
def fields? (names : List String) : Json → Option (String → Option Json)
  | .object members => do
    let members ← members.mapM fun m => return (← m.1, m.2)
    if names.all fun name => (members.filter fun m => m.1 == name).length ≤ 1 then
      return fun name => members.lookup name
    else none
  | .array items =>
    if items.length ≤ names.length then some fun name => (names.zip items).lookup name else none
  | _ => none

/-- A field that has to be there. -/
def required (read : Json → Option α) (field : Option Json) : Option α := field.bind read

/-- A field that has a default. -/
def defaulted (read : Json → Option α) (fallback : α) (field : Option Json) : Option α :=
  match field with
  | none => some fallback
  | some j => read j

end SignedConsole.Json
