import SignedConsole.Json.Printer
import SignedConsole.Json.Shape
import SignedConsole.Proofs.JsonGrammar

namespace SignedConsole.Json

theorem hexValue_digit : ∀ n, n < 16 → Text.hexValue? (Text.hexDigit n) = some n := by decide

theorem hexCode_control (n : Nat) (h : n < 0x20) :
    hexCode? '0' '0' (Text.hexDigit (n / 16)) (Text.hexDigit (n % 16)) = some n := by
  have hz : Text.hexValue? '0' = some 0 := by decide
  have hhigh := hexValue_digit (n / 16) (by omega)
  have hlow := hexValue_digit (n % 16) (by omega)
  simp only [hexCode?, List.foldlM_cons, List.foldlM_nil, hz, hhigh, hlow, Option.bind_eq_bind,
    Option.bind_some, Option.pure_def]
  congr 1
  omega

/-- The piece that a printed character is spelled by joins to the character again. -/
theorem printChar_spelled (c : Char) :
    ∃ p, (∀ ps cs rest, SpellsPieces ps cs rest →
        SpellsPieces (p :: ps) (printChar c ++ cs) rest) ∧
      ∀ ps, joinPieces (p :: ps) = (joinPieces ps).map (c :: ·) := by
  by_cases hesc : c ∈ ['"', '\\', '\n', '\r', '\t', '\x08', '\x0c']
  · refine ⟨.char c, ?_, fun _ => rfl⟩
    intro ps cs rest h
    simp only [List.mem_cons, List.not_mem_nil, or_false] at hesc
    rcases hesc with rfl | rfl | rfl | rfl | rfl | rfl | rfl <;> exact .escape rfl h
  simp only [List.mem_cons, List.not_mem_nil, or_false, not_or] at hesc
  obtain ⟨hq, hs, hn, hr, ht, hb, hf⟩ := hesc
  by_cases hlt : c.toNat < 0x20
  · -- The only escape by number: such a number is no half of a surrogate pair.
    refine ⟨.code c.toNat, ?_, ?_⟩
    · intro ps cs rest h
      simp only [printChar, beq_iff_eq, hq, hs, hn, hr, ht, hb, hf, hlt, ↓reduceIte,
        List.cons_append, List.nil_append]
      exact .code (hexCode_control c.toNat hlt) h
    · intro ps
      have hhigh : isHighSurrogate c.toNat = false := by simp [isHighSurrogate]; omega
      have hlow : isLowSurrogate c.toNat = false := by simp [isLowSurrogate]; omega
      rcases ps with _ | ⟨p | v, ps⟩ <;> simp [joinPieces, hhigh, hlow, Char.ofNat_toNat]
  · refine ⟨.char c, ?_, fun _ => rfl⟩
    intro ps cs rest h
    simp only [printChar, beq_iff_eq, hq, hs, hn, hr, ht, hb, hf, hlt, ↓reduceIte,
      List.cons_append, List.nil_append]
    exact .plain hq hs (Nat.le_of_not_lt hlt) h

theorem printChars_spelled (cs rest : List Char) :
    ∃ ps, SpellsPieces ps (cs.flatMap printChar ++ '"' :: rest) rest ∧ joinPieces ps = some cs := by
  induction cs with
  | nil => exact ⟨[], .closed rest, rfl⟩
  | cons c cs ih =>
    obtain ⟨ps, hps, hjoin⟩ := ih
    obtain ⟨p, hp, hc⟩ := printChar_spelled c
    refine ⟨p :: ps, ?_, by rw [hc, hjoin]; rfl⟩
    rw [List.flatMap_cons, List.append_assoc]
    exact hp _ _ _ hps

/-- A printed literal spells its text behind the opening quote. -/
theorem printText_spelled (s : String) (rest : List Char) :
    ∃ ps, SpellsPieces ps (s.toList.flatMap printChar ++ '"' :: rest) rest ∧
      textOf ps = some s := by
  obtain ⟨ps, hps, hjoin⟩ := printChars_spelled s.toList rest
  exact ⟨ps, hps, by rw [textOf, hjoin, Option.map_some, String.ofList_toList]⟩

mutual

/-- Whether a document can be written down: its texts are texts and its numbers are numbers of the
grammar. -/
def Spelled : Json → Prop
  | .null => True
  | .bool _ => True
  | .number n => n.Spelled
  | .text t => t.isSome = true
  | .array items => ItemsSpelled items
  | .object members => MembersSpelled members

def ItemsSpelled : List Json → Prop
  | [] => True
  | v :: vs => Spelled v ∧ ItemsSpelled vs

def MembersSpelled : List (Option String × Json) → Prop
  | [] => True
  | m :: ms => MemberSpelled m ∧ MembersSpelled ms

def MemberSpelled : Option String × Json → Prop
  | (k, v) => k.isSome = true ∧ Spelled v

end

theorem printExponent_spelled (e : Option (Bool × List Char)) :
    SpellsExponent e (printExponent e) := by
  match e with
  | none => exact .absent
  | some (false, ds) => exact .bare (Or.inl rfl) ds
  | some (true, ds) => exact .minus (Or.inl rfl) ds

theorem printNumber_spelled {n : Number} (hn : n.Spelled) (rest : List Char) :
    SpellsNumber n (printNumber n ++ rest) rest :=
  ⟨hn, printExponent n.exponent, printExponent_spelled n.exponent, by simp [printNumber]⟩

theorem text_spelled (s : String) (rest : List Char) :
    Spells (.value (.ofString s)) (printText s ++ rest) rest := by
  obtain ⟨ps, hps, hname⟩ := printText_spelled s rest
  have h := Spells.text hps
  rw [hname] at h
  simpa [printText, ofString] using h

/-- A key, its colon and white space in front of the last value of an object. -/
theorem key_last_spelled {k : String} {v : Json} {more value after rest : List Char}
    (hm : Blanks more value) (h : Spells (.value v) value after)
    (hs : Blanks after ('\x7d' :: rest)) :
    Spells (.members [(some k, v)]) (printText k ++ ':' :: more) rest := by
  obtain ⟨ps, hk, hname⟩ := printText_spelled k (':' :: more)
  rw [← hname]
  simpa [printText] using Spells.lastMember hk (.refl _) hm h hs

theorem key_spelled {k : String} {v : Json} {ms : List (Option String × Json)}
    {more value after others next rest : List Char} (hm : Blanks more value)
    (h : Spells (.value v) value after) (hs : Blanks after (',' :: others))
    (ht : Blanks others next) (hn : Spells (.members ms) next rest) :
    Spells (.members ((some k, v) :: ms)) (printText k ++ ':' :: more) rest := by
  obtain ⟨ps, hk, hname⟩ := printText_spelled k (':' :: more)
  rw [← hname]
  simpa [printText] using Spells.member hk (.refl _) hm h hs ht hn

mutual

/-- A printed value spells the value. -/
theorem value_spelled : (j : Json) → j.Spelled → ∀ rest, Spells (.value j) (chars j ++ rest) rest
  | .null, _, rest => .null rest
  | .bool true, _, rest => .true rest
  | .bool false, _, rest => .false rest
  | .number _, hn, rest => .number (printNumber_spelled hn rest)
  | .text (some s), _, rest => text_spelled s rest
  | .array [], _, rest => .noItems (.refl _)
  | .object [], _, rest => .noMembers (.refl _)
  | .array (v :: vs), hj, rest => by
    simpa [chars] using Spells.array (.refl _) (itemsSpelled v vs hj rest)
  | .object ((some k, v) :: ms), hj, rest => by
    simpa [chars] using Spells.object (.refl _) (object_spelled k v ms hj rest)
termination_by j => sizeOf j

theorem itemsSpelled : (v : Json) → (vs : List Json) → ItemsSpelled (v :: vs) →
    ∀ rest, Spells (.items (v :: vs)) (itemChars (v :: vs) ++ ']' :: rest) rest
  | v, [], hv, rest => .lastItem (value_spelled v hv.1 (']' :: rest)) (.refl _)
  | v, w :: vs, hv, rest => by
    have hvalue := value_spelled v hv.1 (',' :: (itemChars (w :: vs) ++ ']' :: rest))
    simpa [itemChars] using
      Spells.item hvalue (.refl _) (.refl _) (itemsSpelled w vs hv.2 rest)
termination_by v vs => sizeOf v + sizeOf vs

theorem object_spelled : (k : String) → (v : Json) → (ms : List (Option String × Json)) →
    MembersSpelled ((some k, v) :: ms) → ∀ rest,
      Spells (.members ((some k, v) :: ms))
        (memberChars ((some k, v) :: ms) ++ '\x7d' :: rest) rest
  | k, v, [], hv, rest => by
    have hvalue := value_spelled v hv.1.2 ('\x7d' :: rest)
    simpa [memberChars, memberChar] using key_last_spelled (.refl _) hvalue (.refl _)
  | k, v, (some l, w) :: ms, hv, rest => by
    have hvalue := value_spelled v hv.1.2
      (',' :: (memberChars ((some l, w) :: ms) ++ '\x7d' :: rest))
    simpa [memberChars, memberChar] using
      key_spelled (.refl _) hvalue (.refl _) (.refl _) (object_spelled l w ms hv.2 rest)
termination_by _ v ms => sizeOf v + sizeOf ms

end

/-- What is printed spells the document it is printed from. -/
theorem print_document {j : Json} (h : j.Spelled) : Document j.print j := by
  have hvalue := value_spelled j h []
  rw [List.append_nil] at hvalue
  exact ⟨chars j, [], by rw [print, String.toList_ofList]; exact .refl _, hvalue, .refl []⟩

/-- A printed document is read as itself. -/
theorem read_print {j : Json} (h : j.Spelled) : read j.print = some j :=
  read_iff_document.mpr (print_document h)

/-- A value that has no parts and is no number. -/
inductive Plain : Json → Prop where
  | null : Plain .null
  | bool (b : Bool) : Plain (.bool b)
  | text (s : String) : Plain (.ofString s)

theorem Plain.spelled {j : Json} (h : j.Plain) : j.Spelled := by
  cases h with
  | null => exact trivial
  | bool b => exact trivial
  | text s => exact rfl

theorem Plain.sound {j : Json} (h : j.Plain) : j.isSound = true := by
  cases h <;> rfl

theorem Plain.depth {j : Json} (h : j.Plain) : j.depth = 0 := by
  cases h <;> rfl

theorem ofMembers_spelled {members : List (String × Json)} (h : ∀ m ∈ members, m.2.Plain) :
    (ofMembers members).Spelled := by
  induction members with
  | nil => exact trivial
  | cons m ms ih =>
    exact ⟨⟨rfl, (h m (by simp)).spelled⟩, ih fun n hn => h n (List.mem_cons_of_mem m hn)⟩

theorem ofMembers_isSound {members : List (String × Json)} (h : ∀ m ∈ members, m.2.Plain) :
    (ofMembers members).isSound = true := by
  induction members with
  | nil => rfl
  | cons m ms ih =>
    have hm := (h m (by simp)).sound
    have hms := ih fun n hn => h n (List.mem_cons_of_mem m hn)
    simp only [ofMembers, isSound, List.map_cons, membersSound, memberSound] at hms ⊢
    simp [hm, hms]

theorem ofMembers_depth {members : List (String × Json)} (h : ∀ m ∈ members, m.2.Plain) :
    (ofMembers members).depth = 1 := by
  induction members with
  | nil => rfl
  | cons m ms ih =>
    have hm := (h m (by simp)).depth
    have hms := ih fun n hn => h n (List.mem_cons_of_mem m hn)
    simp only [ofMembers, Json.depth, List.map_cons, membersDepth, memberDepth] at hms ⊢
    omega

/-- A flat object may stand where any value may. -/
theorem ofMembers_isValue {members : List (String × Json)} (h : ∀ m ∈ members, m.2.Plain) :
    (ofMembers members).isValue = true := by
  simp [isValue, ofMembers_isSound h, ofMembers_depth h, depthLimit]

end SignedConsole.Json
