import SignedConsole.Proofs.JsonRoundTrip
import SignedConsole.Proofs.TextPieces

namespace SignedConsole

namespace Json

theorem nat_spelled (n : Nat) : (ofNat n).Spelled where
  whole := by
    by_cases h : n = 0
    · exact Or.inl (by rw [h]; rfl)
    · obtain ⟨d, ds, hd, hne⟩ := Text.digits_head h
      exact Or.inr ⟨d, ds, hd, hne, fun c hc => Text.digits_are_digits (hd ▸ hc)⟩
  fraction := nofun
  exponent := nofun

/-- A number is read as what it is, up to the limit. -/
theorem natUpTo_ofNat {limit n : Nat} (h : n ≤ limit) : natUpTo? limit (ofNat n) = some n := by
  simp [natUpTo?, ofNat, Text.digitsValue_digits, h]

/-- A member on its line. -/
def lineChars (m : String × Json) : List Char := printText m.1 ++ ':' :: ' ' :: chars m.2

/-- Members on a line each, the first where the text begins. -/
def linesChars : List (String × Json) → List Char
  | [] => []
  | [m] => lineChars m
  | m :: n :: ms => lineChars m ++ ',' :: '\n' :: ' ' :: ' ' :: linesChars (n :: ms)

theorem printLines_chars (m : String × Json) (ms : List (String × Json)) :
    (printLines (m :: ms)).toList =
      '\x7b' :: '\n' :: ' ' :: ' ' :: linesChars (m :: ms) ++ ['\n', '\x7d'] := by
  have hlines : ∀ m, [',', '\n'].intercalate ((m :: ms).map fun m =>
      ' ' :: ' ' :: printText m.1 ++ ':' :: ' ' :: chars m.2) =
        ' ' :: ' ' :: linesChars (m :: ms) := by
    induction ms with
    | nil => exact fun m => List.intercalate_singleton
    | cons n ms ih =>
      intro m
      have hrest := ih n
      rw [List.map_cons] at hrest
      rw [List.map_cons, List.map_cons, List.intercalate_cons_cons, hrest]
      simp [linesChars, lineChars]
  rw [printLines, String.toList_ofList, hlines m]

theorem blanks_space (cs : List Char) : Blanks (' ' :: cs) cs := .cons rfl (.refl cs)

/-- What stands between two lines behind the comma. -/
theorem blanks_line (cs : List Char) : Blanks ('\n' :: ' ' :: ' ' :: cs) cs :=
  .cons rfl (.cons rfl (blanks_space cs))

/-- Lines spell their members, up to the brace on the line behind them. -/
theorem lines_spelled (ms : List (String × Json)) : ∀ k v,
    (∀ m ∈ (k, v) :: ms, m.2.Spelled) → ∀ rest,
      Spells (.members (((k, v) :: ms).map fun m => (some m.1, m.2)))
        (linesChars ((k, v) :: ms) ++ '\n' :: '\x7d' :: rest) rest := by
  induction ms with
  | nil =>
    intro k v hs rest
    have hvalue := value_spelled v (hs (k, v) List.mem_cons_self) ('\n' :: '\x7d' :: rest)
    simpa [linesChars, lineChars] using
      key_last_spelled (blanks_space _) hvalue (.cons rfl (.refl _))
  | cons m ms ih =>
    intro k v hs rest
    obtain ⟨l, w⟩ := m
    have hvalue := value_spelled v (hs (k, v) List.mem_cons_self)
      (',' :: '\n' :: ' ' :: ' ' :: (linesChars ((l, w) :: ms) ++ '\n' :: '\x7d' :: rest))
    have htail := ih l w (fun m hm => hs m (List.mem_cons_of_mem _ hm)) rest
    simpa [linesChars, lineChars] using
      key_spelled (blanks_space _) hvalue (.refl _) (blanks_line _) htail

/-- An object with a line for each of its members is read as that object. -/
theorem read_printLines {members : List (String × Json)} (hne : members ≠ [])
    (hs : ∀ m ∈ members, m.2.Spelled) : read (printLines members) = some (ofMembers members) := by
  obtain ⟨⟨k, v⟩, ms, rfl⟩ := List.exists_cons_of_ne_nil hne
  have hobject := Spells.object (blanks_line _) (lines_spelled ms k v hs [])
  refine read_iff_document.mpr ⟨_, [], ?_, hobject, .refl []⟩
  rw [printLines_chars]
  exact .refl _

end Json
end SignedConsole
