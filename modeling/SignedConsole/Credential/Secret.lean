import SignedConsole.Text.Utf8

namespace SignedConsole

/-- A text that is never shown, and that is compared in as many steps as it has bytes. -/
structure Secret where
  text : String

namespace Secret

/-- What stands wherever a secret would be shown. -/
def redacted : String := "[REDACTED]"

/-- Collects the differences of all pairs in one byte. -/
def sameBytes (a b : Bytes) : Bool :=
  a.length == b.length && (a.zip b).foldl (fun acc p => acc ||| (p.1 ^^^ p.2)) 0 == (0 : UInt8)

instance : BEq Secret := ⟨fun a b => sameBytes (Text.utf8 a.text) (Text.utf8 b.text)⟩

def isEmpty (s : Secret) : Bool := s.text.isEmpty

/-- The length in bytes. -/
def length (s : Secret) : Nat := (Text.utf8 s.text).length

end Secret
end SignedConsole
