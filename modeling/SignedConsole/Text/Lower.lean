import SignedConsole.Text.CaseTable

namespace SignedConsole.Text

def isCased (c : Char) : Bool := inRanges casedRanges c

def isCaseIgnorable (c : Char) : Bool := inRanges caseIgnorableRanges c

/-- Whether the first character that counts for case is a cased one. -/
def meetsCased (cs : List Char) : Bool :=
  match cs.dropWhile isCaseIgnorable with
  | [] => false
  | c :: _ => isCased c

/-- The lower case of a character that stands for itself. -/
def lowerChar (c : Char) : Char :=
  let n := c.toNat
  if n < 0x80 then c.toLower
  else match lowerRuns.find? fun r => r.first ≤ n && n ≤ r.last && (n - r.first) % r.step == 0 with
    | some r => Char.ofNat (r.image + (n - r.first))
    | none => c

/-- `before` holds the characters already passed, the nearest first. -/
def lowerFrom (before : List Char) : List Char → List Char
  | [] => []
  | c :: cs =>
    let image :=
      if c == 'Σ' then [if meetsCased before && !meetsCased cs then 'ς' else 'σ']
      else if c == 'İ' then ['i', '\u0307']
      else [lowerChar c]
    image ++ lowerFrom (c :: before) cs

/-- Lower case for all of Unicode. Two capitals have no single image: the dotted capital I becomes
two characters, and the capital sigma has a form of its own at the end of a word. -/
def lower (s : String) : String := String.ofList (lowerFrom [] s.toList)

/-- Lower case of the ASCII letters alone. -/
def lowerAscii (s : String) : String := String.ofList (s.toList.map Char.toLower)

end SignedConsole.Text
