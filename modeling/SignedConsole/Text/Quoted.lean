import SignedConsole.Text.CaseTable
import SignedConsole.Text.Digits
import SignedConsole.Text.Unprintable

namespace SignedConsole.Text

/-- Whether a character is spelled by its number inside quotes. -/
def isUnprintable (c : Char) : Bool :=
  if c.toNat < 0x7F then c.toNat < 0x20 else inRanges unprintableRanges c

def quotedChar (c : Char) : List Char :=
  if c == '"' then ['\\', '"']
  else if c == '\\' then ['\\', '\\']
  else if c == '\n' then ['\\', 'n']
  else if c == '\r' then ['\\', 'r']
  else if c == '\t' then ['\\', 't']
  else if c.toNat == 0 then ['\\', '0']
  else if isUnprintable c then ['\\', 'u', '\x7b'] ++ hex c.toNat ++ ['\x7d']
  else [c]

/-- The text between double quotes. -/
def quoted (s : String) : String :=
  String.ofList ('"' :: s.toList.flatMap quotedChar ++ ['"'])

/-- An optional part: `None`, or `Some` around how the part is shown. -/
def quotedOption (part : Option String) : String :=
  match part with
  | none => "None"
  | some shown => "Some(" ++ shown ++ ")"

end SignedConsole.Text
