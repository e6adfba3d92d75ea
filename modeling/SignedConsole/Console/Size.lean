import SignedConsole.Rounding
import SignedConsole.Text.Digits

namespace SignedConsole.Size

def units : List String := ["B", "KB", "MB", "GB"]

/-- Divides by 1024 from unit to unit until less than 1024 is left or no larger unit is, of which
there are `left` more. Dividing a double by 1024 is exact. -/
def unitFrom (n unit : Nat) : (left : Nat) → Nat
  | 0 => unit
  | left + 1 =>
    if 1024 * Nat.pow 1024 unit ≤ n then unitFrom n (unit + 1) left else unit

/-- The index of the unit for a number of bytes. -/
def unitIndex (n : Nat) : Nat := unitFrom n 0 (units.length - 1)

/-- How many hundredths of its unit a size is shown as. -/
def hundredths (bytes : Nat) : Nat :=
  let n := Rounding.double bytes
  Rounding.quotient (100 * n) (Nat.pow 1024 (unitIndex n))

/-- A number of hundredths with two decimals. -/
def twoDecimals (n : Nat) : String :=
  Text.decimal (n / 100) ++ "." ++ Text.decimal (n / 10 % 10) ++ Text.decimal (n % 10)

/-- Two decimals in the largest unit that fits, gigabytes at most. The count is first rounded to a
double, which only counts above 2⁵³ bytes. -/
def format (bytes : Nat) : String :=
  if bytes = 0 then "0 B"
  else twoDecimals (hundredths bytes) ++ " " ++
    units.getD (unitIndex (Rounding.double bytes)) ""

end SignedConsole.Size
