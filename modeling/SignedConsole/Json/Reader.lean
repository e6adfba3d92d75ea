import SignedConsole.Json.Basic

namespace SignedConsole.Json

def isSpace (c : Char) : Bool := c == ' ' || c == '\n' || c == '\t' || c == '\r'

def skipSpace (cs : List Char) : List Char := cs.dropWhile isSpace

/-- A piece of a string literal: a character, or the number of a `\u` escape. -/
inductive Piece where
  | char (c : Char)
  | code (unit : Nat)
deriving DecidableEq

def hexCode? (a b c d : Char) : Option Nat :=
  [a, b, c, d].foldlM (fun n digit => return 16 * n + (← Text.hexValue? digit)) 0

/-- The character that a one-letter escape stands for. -/
def escaped? : Char → Option Char
  | '"' => some '"'
  | '\\' => some '\\'
  | '/' => some '/'
  | 'b' => some '\x08'
  | 'f' => some '\x0c'
  | 'n' => some '\n'
  | 'r' => some '\r'
  | 't' => some '\t'
  | _ => none

/-- Reads a string literal behind its opening quote. -/
def readPieces : List Char → Option (List Piece × List Char)
  | [] => none
  | '"' :: cs => some ([], cs)
  | '\\' :: 'u' :: a :: b :: c :: d :: cs => do
    let unit ← hexCode? a b c d
    let (ps, rest) ← readPieces cs
    return (.code unit :: ps, rest)
  | '\\' :: e :: cs => do
    let c ← escaped? e
    let (ps, rest) ← readPieces cs
    return (.char c :: ps, rest)
  | c :: cs =>
    if c == '\\' || c.toNat < 0x20 then none
    else do
      let (ps, rest) ← readPieces cs
      return (.char c :: ps, rest)

def isHighSurrogate (unit : Nat) : Bool := 0xD800 ≤ unit && unit ≤ 0xDBFF

def isLowSurrogate (unit : Nat) : Bool := 0xDC00 ≤ unit && unit ≤ 0xDFFF

/-- The text of a literal: two escapes that form a surrogate pair are one character, and a half
without its other half is none. -/
def joinPieces : List Piece → Option (List Char)
  | [] => some []
  | .char c :: ps => (joinPieces ps).map (c :: ·)
  | .code u :: .code v :: ps =>
    if isHighSurrogate u then
      if isLowSurrogate v then
        (joinPieces ps).map (Char.ofNat (0x10000 + (u - 0xD800) * 0x400 + (v - 0xDC00)) :: ·)
      else none
    else if isLowSurrogate u then none
    else (joinPieces (.code v :: ps)).map (Char.ofNat u :: ·)
  | .code u :: ps =>
    if isHighSurrogate u || isLowSurrogate u then none
    else (joinPieces ps).map (Char.ofNat u :: ·)

def readText (cs : List Char) : Option (Option String × List Char) :=
  (readPieces cs).map fun (ps, rest) => ((joinPieces ps).map String.ofList, rest)

/-- Reads digits, at least one. -/
def readDigits (cs : List Char) : Option (List Char × List Char) :=
  match cs.takeWhile Text.isDigit with
  | [] => none
  | ds => some (ds, cs.dropWhile Text.isDigit)

/-- Reads the digits before the point, where only the number zero starts with a zero. -/
def readWhole : List Char → Option (List Char × List Char)
  | '0' :: cs => some (['0'], cs)
  | cs => readDigits cs

def readFraction : List Char → Option (List Char × List Char)
  | '.' :: cs => readDigits cs
  | cs => some ([], cs)

def readSign : List Char → Bool × List Char
  | '-' :: cs => (true, cs)
  | '+' :: cs => (false, cs)
  | cs => (false, cs)

def readExponent : List Char → Option (Option (Bool × List Char) × List Char)
  | c :: cs =>
    if c == 'e' || c == 'E' then do
      let (negative, cs) := readSign cs
      let (ds, rest) ← readDigits cs
      return (some (negative, ds), rest)
    else some (none, c :: cs)
  | [] => some (none, [])

/-- The sign in front of a number can only be a minus. -/
def readMinus : List Char → Bool × List Char
  | '-' :: cs => (true, cs)
  | cs => (false, cs)

def readNumber (cs : List Char) : Option (Number × List Char) := do
  let (negative, cs) := readMinus cs
  let (whole, cs) ← readWhole cs
  let (fraction, cs) ← readFraction cs
  let (exponent, cs) ← readExponent cs
  return (⟨negative, whole, fraction, exponent⟩, cs)

mutual

/-- Reads a value from where a text stands, and gives the text left. The first argument bounds the
steps of the three readers together; nesting is not limited otherwise. -/
def readValue : Nat → List Char → Option (Json × List Char)
  | 0, _ => none
  | _ + 1, 'n' :: 'u' :: 'l' :: 'l' :: cs => some (.null, cs)
  | _ + 1, 't' :: 'r' :: 'u' :: 'e' :: cs => some (.bool true, cs)
  | _ + 1, 'f' :: 'a' :: 'l' :: 's' :: 'e' :: cs => some (.bool false, cs)
  | _ + 1, '"' :: cs => (readText cs).map fun (t, rest) => (.text t, rest)
  | steps + 1, '[' :: cs =>
    match skipSpace cs with
    | ']' :: cs => some (.array [], cs)
    | cs => (readItems steps cs).map fun (items, rest) => (.array items, rest)
  | steps + 1, '{' :: cs =>
    match skipSpace cs with
    | '}' :: cs => some (.object [], cs)
    | cs => (readMembers steps cs).map fun (members, rest) => (.object members, rest)
  | _ + 1, cs => (readNumber cs).map fun (n, rest) => (.number n, rest)

/-- Reads the items of an array up to its end, from the start of one of them. -/
def readItems : Nat → List Char → Option (List Json × List Char)
  | 0, _ => none
  | steps + 1, cs => do
    let (v, cs) ← readValue steps cs
    match skipSpace cs with
    | ',' :: cs =>
      let (vs, rest) ← readItems steps (skipSpace cs)
      return (v :: vs, rest)
    | ']' :: rest => return ([v], rest)
    | _ => none

/-- Reads the members of an object up to its end, from the start of one of them. -/
def readMembers : Nat → List Char → Option (List (Option String × Json) × List Char)
  | 0, _ => none
  | steps + 1, '"' :: cs => do
    let (k, cs) ← readText cs
    match skipSpace cs with
    | ':' :: cs =>
      let (v, cs) ← readValue steps (skipSpace cs)
      match skipSpace cs with
      | ',' :: cs =>
        let (ms, rest) ← readMembers steps (skipSpace cs)
        return ((k, v) :: ms, rest)
      | '}' :: rest => return ([(k, v)], rest)
      | _ => none
    | _ => none
  | _ + 1, _ => none

end

/-- A step enters a value or moves to its next item, so two for each character are enough. -/
def stepsFor (cs : List Char) : Nat := 2 * cs.length + 2

/-- The document that a text spells, if it is JSON and nothing else. -/
def read (s : String) : Option Json := do
  let cs := skipSpace s.toList
  let (v, rest) ← readValue (stepsFor cs) cs
  if (skipSpace rest).isEmpty then some v else none

end SignedConsole.Json
