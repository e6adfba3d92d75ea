import SignedConsole.Base64
import SignedConsole.Credential.Error
import SignedConsole.Text.Blank
import SignedConsole.Text.Utf8

namespace SignedConsole.Pem

/-- A line of five dashes and anything behind them, indented or not. -/
def isLabel (line : List Char) : Bool := ("-----".toList).isPrefixOf (Text.trimStart line)

/-- What is left of a text without its label lines and its white space. -/
def keyText (pem : String) : List Char :=
  ((Text.splitWith (· == '\n') pem.toList).filter fun line => !isLabel line).flatMap
    fun line => line.filter fun c => !Text.isBlank c

/-- The bytes that a PEM text wraps. Labels are not compared, and white space does not count. -/
def decode (pem : String) : Except CredentialError Bytes :=
  match keyText pem with
  | [] => .error (.invalidKey "PEM contains no key material")
  | cs => (Base64.decode (Text.utf8 (String.ofList cs))).mapError fun e => .encoding e.message

end SignedConsole.Pem
