namespace SignedConsole.Rounding

/-- The whole number nearest to `num / den`. -/
def quotient (num den : Nat) : Nat :=
  let q := num / den
  let twice := 2 * (num % den)
  if twice < den then q
  else if den < twice then q + 1
  else if q % 2 = 0 then q else q + 1

/-- The double nearest to a whole number, as long as doubles reach that far. -/
def double (n : Nat) : Nat :=
  let unit := Nat.pow 2 (n.log2 + 1 - 53)
  quotient n unit * unit

end SignedConsole.Rounding
