namespace SignedConsole.Text

/-- The characters with the Unicode property White_Space. -/
def isBlank (c : Char) : Bool :=
  let n := c.toNat
  (9 ≤ n && n ≤ 13) || n == 0x20 || n == 0x85 || n == 0xA0 || n == 0x1680 ||
    (0x2000 ≤ n && n ≤ 0x200A) || n == 0x2028 || n == 0x2029 || n == 0x202F || n == 0x205F ||
    n == 0x3000

def trimStart (cs : List Char) : List Char := cs.dropWhile isBlank

def trimEnd (cs : List Char) : List Char := (cs.reverse.dropWhile isBlank).reverse

/-- The text without the white space at its two ends. -/
def trim (s : String) : String := String.ofList (trimEnd (trimStart s.toList))

/-- The pieces between the separators, empty ones included: one more than there are separators. -/
def splitWith (p : Char → Bool) : List Char → List (List Char)
  | [] => [[]]
  | c :: cs =>
    if p c then [] :: splitWith p cs
    else match splitWith p cs with
      | [] => [[c]]
      | w :: ws => (c :: w) :: ws

theorem splitWith_ne_nil (p : Char → Bool) (cs : List Char) : splitWith p cs ≠ [] := by
  cases cs with
  | nil => simp [splitWith]
  | cons c cs =>
    rw [splitWith]
    split
    · simp
    · split <;> simp

/-- The words of a line, in order. -/
def words (line : String) : List String :=
  ((splitWith isBlank line.toList).filter fun w => !w.isEmpty).map String.ofList

end SignedConsole.Text
