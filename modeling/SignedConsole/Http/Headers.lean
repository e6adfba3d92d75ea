import SignedConsole.Text.Lower

namespace SignedConsole

/-- Header lines in the order in which they are set. -/
abbrev Headers := List (String × String)

namespace Headers

/-- The value of the first header of that name, whatever its ASCII case. -/
def get? (headers : Headers) (name : String) : Option String :=
  (headers.find? fun h => Text.lowerAscii h.1 == Text.lowerAscii name).map (·.2)

/-- Whether a text can be sent as a value: it has no control character but the tab. -/
def isValue (value : String) : Bool :=
  value.toList.all fun c => (0x20 ≤ c.toNat || c == '\t') && c.toNat != 0x7F

end Headers
end SignedConsole
