import SignedConsole.Json.Basic

namespace SignedConsole.Json

/-- A character inside a string literal. Only the quote, the backslash and controls are escaped. -/
def printChar (c : Char) : List Char :=
  if c == '"' then ['\\', '"']
  else if c == '\\' then ['\\', '\\']
  else if c == '\n' then ['\\', 'n']
  else if c == '\r' then ['\\', 'r']
  else if c == '\t' then ['\\', 't']
  else if c == '\x08' then ['\\', 'b']
  else if c == '\x0c' then ['\\', 'f']
  else if c.toNat < 0x20 then
    ['\\', 'u', '0', '0', Text.hexDigit (c.toNat / 16), Text.hexDigit (c.toNat % 16)]
  else [c]

def printText (s : String) : List Char := '"' :: s.toList.flatMap printChar ++ ['"']

def printExponent : Option (Bool × List Char) → List Char
  | none => []
  | some (negative, digits) => 'e' :: (if negative then ['-'] else []) ++ digits

def printNumber (n : Number) : List Char :=
  (if n.negative then ['-'] else []) ++ n.whole ++
    (if n.fraction.isEmpty then [] else '.' :: n.fraction) ++ printExponent n.exponent

mutual

def chars : Json → List Char
  | .null => ['n', 'u', 'l', 'l']
  | .bool true => ['t', 'r', 'u', 'e']
  | .bool false => ['f', 'a', 'l', 's', 'e']
  | .number n => printNumber n
  | .text (some s) => printText s
  | .text none => ['"', '\\', 'u', 'd', '8', '0', '0', '"']
  | .array items => '[' :: itemChars items ++ [']']
  | .object members => '\x7b' :: memberChars members ++ ['\x7d']

def itemChars : List Json → List Char
  | [] => []
  | [v] => chars v
  | v :: w :: vs => chars v ++ ',' :: itemChars (w :: vs)

def memberChars : List (Option String × Json) → List Char
  | [] => []
  | [m] => memberChar m
  | m :: n :: ms => memberChar m ++ ',' :: memberChars (n :: ms)

/-- A key, a colon and a value. -/
def memberChar : Option String × Json → List Char
  | (some k, v) => printText k ++ ':' :: chars v
  | (none, v) => ['"', '\\', 'u', 'd', '8', '0', '0', '"', ':'] ++ chars v

end

/-- Compact, members in the order given, and no escape that is not needed. -/
def print (j : Json) : String := String.ofList (chars j)

/-- An object with a line for each member, indented by two spaces. -/
def printLines (members : List (String × Json)) : String :=
  let line := fun (m : String × Json) =>
    ' ' :: ' ' :: printText m.1 ++ ':' :: ' ' :: chars m.2
  String.ofList ('\x7b' :: '\n' :: [',', '\n'].intercalate (members.map line) ++ ['\n', '\x7d'])

end SignedConsole.Json
