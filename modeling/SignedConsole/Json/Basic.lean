import SignedConsole.Text.Digits

namespace SignedConsole

/-- The parts of a number literal. An absent fraction is empty; an exponent is a sign, which says
whether it is negative, and digits. -/
structure Json.Number where
  negative : Bool
  whole : List Char
  fraction : List Char
  exponent : Option (Bool × List Char)
deriving DecidableEq

/-- A document as it is spelled: members keep their order and may repeat, numbers keep their digits.
A string literal may hold half of a surrogate pair, which no text can hold. -/
inductive Json where
  | null
  | bool (b : Bool)
  | number (n : Json.Number)
  /-- A string literal, with the text that it names if it names one. -/
  | text (t : Option String)
  | array (items : List Json)
  | object (members : List (Option String × Json))

namespace Json

def ofString (s : String) : Json := .text (some s)

def ofNat (n : Nat) : Json := .number ⟨false, Text.digits n, [], none⟩

/-- An object with the given members, in that order. -/
def ofMembers (members : List (String × Json)) : Json :=
  .object (members.map fun m => (some m.1, m.2))

end Json
end SignedConsole
