import SignedConsole.Json.Reader

namespace SignedConsole.Json

/-- A string literal behind its opening quote, piece by piece up to the closing one. -/
inductive SpellsPieces : List Piece → List Char → List Char → Prop where
  | closed (rest : List Char) : SpellsPieces [] ('"' :: rest) rest
  | plain {c : Char} {ps : List Piece} {cs rest : List Char} (hq : c ≠ '"') (hs : c ≠ '\\')
      (hc : 0x20 ≤ c.toNat) (h : SpellsPieces ps cs rest) :
      SpellsPieces (.char c :: ps) (c :: cs) rest
  | escape {e c : Char} {ps : List Piece} {cs rest : List Char} (he : escaped? e = some c)
      (h : SpellsPieces ps cs rest) : SpellsPieces (.char c :: ps) ('\\' :: e :: cs) rest
  | code {a b c d : Char} {unit : Nat} {ps : List Piece} {cs rest : List Char}
      (hu : hexCode? a b c d = some unit) (h : SpellsPieces ps cs rest) :
      SpellsPieces (.code unit :: ps) ('\\' :: 'u' :: a :: b :: c :: d :: cs) rest

/-- The text that the pieces of a literal name, if they name one. -/
def textOf (ps : List Piece) : Option String := (joinPieces ps).map String.ofList

theorem spellsPieces_of_read {cs rest : List Char} {ps : List Piece}
    (h : readPieces cs = some (ps, rest)) : SpellsPieces ps cs rest := by
  fun_induction readPieces cs generalizing ps with
  | case1 => cases h
  | case2 cs =>
    cases h
    exact .closed rest
  | case3 a b c d cs ih =>
    simp only [Option.bind_eq_bind, Option.bind_eq_some_iff, Option.pure_def, Option.some.injEq,
      Prod.mk.injEq] at h
    obtain ⟨unit, hu, ⟨ps, after⟩, hread, rfl, rfl⟩ := h
    exact .code hu (ih hread)
  | case4 e cs _ ih =>
    simp only [Option.bind_eq_bind, Option.bind_eq_some_iff, Option.pure_def, Option.some.injEq,
      Prod.mk.injEq] at h
    obtain ⟨c, he, ⟨ps, after⟩, hread, rfl, rfl⟩ := h
    exact .escape he (ih hread)
  | case5 => cases h
  | case6 c cs hq _ _ hplain ih =>
    simp only [Option.bind_eq_bind, Option.bind_eq_some_iff, Option.pure_def, Option.some.injEq,
      Prod.mk.injEq] at h
    obtain ⟨⟨ps, after⟩, hread, rfl, rfl⟩ := h
    simp only [Bool.or_eq_true, beq_iff_eq, decide_eq_true_eq, not_or, Nat.not_lt] at hplain
    exact .plain (fun hc => hq hc) hplain.1 hplain.2 (ih hread)

theorem spells_of_readText {cs rest : List Char} {t : Option String}
    (h : readText cs = some (t, rest)) : ∃ ps, SpellsPieces ps cs rest ∧ t = textOf ps := by
  obtain ⟨⟨ps, after⟩, hread, heq⟩ := Option.map_eq_some_iff.mp h
  cases heq
  exact ⟨ps, spellsPieces_of_read hread, rfl⟩

/-- A character that needs no escape stands for itself. -/
theorem read_plain_char (c : Char) (cs : List Char) (hq : c ≠ '"') (hs : c ≠ '\\')
    (hc : ¬c.toNat < 0x20) :
    readPieces (c :: cs) = (readPieces cs).map fun r => (.char c :: r.1, r.2) := by
  rw [readPieces]
  · have hb : (c == '\\') = false := beq_eq_false_iff_ne.mpr hs
    simp only [hb, hc, decide_false, Bool.or_self, Bool.false_eq_true, ↓reduceIte]
    cases readPieces cs <;> rfl
  · simpa using hq
  · intro _ _ _ _ _ h
    simp [hs] at h
  · intro _ _ h
    simp [hs] at h

theorem read_escaped_char (e c : Char) (cs : List Char) (hu : e ≠ 'u') (he : escaped? e = some c) :
    readPieces ('\\' :: e :: cs) = (readPieces cs).map fun r => (.char c :: r.1, r.2) := by
  rw [readPieces]
  · simp only [he, Option.bind_eq_bind, Option.bind_some]
    cases readPieces cs <;> rfl
  · intro _ _ _ _ _ h
    simp [hu] at h

theorem SpellsPieces.read {ps : List Piece} {cs rest : List Char} (h : SpellsPieces ps cs rest) :
    readPieces cs = some (ps, rest) := by
  induction h with
  | closed rest => rw [readPieces]
  | plain hq hs hc _ ih =>
    rw [read_plain_char _ _ hq hs (Nat.not_lt.mpr hc), ih]
    rfl
  | @escape e c _ _ _ he _ ih =>
    have hu : e ≠ 'u' := by
      rintro rfl
      cases he
    rw [read_escaped_char e c _ hu he, ih]
    rfl
  | code hu _ ih => simp [readPieces, hu, ih]

theorem SpellsPieces.length_lt {ps : List Piece} {cs rest : List Char}
    (h : SpellsPieces ps cs rest) : rest.length < cs.length := by
  induction h with
  | closed rest => exact Nat.lt_succ_self _
  | plain _ _ _ _ ih => exact Nat.lt_succ_of_lt ih
  | escape _ _ ih =>
    simp only [List.length_cons]
    omega
  | code _ _ ih =>
    simp only [List.length_cons]
    omega

theorem SpellsPieces.readText {ps : List Piece} {cs rest : List Char}
    (h : SpellsPieces ps cs rest) : readText cs = some (textOf ps, rest) := by
  rw [Json.readText, h.read]
  rfl

theorem digit_ne {c d : Char} (hc : Text.isDigit c = true) (hd : Text.isDigit d = false) :
    c ≠ d := by
  rintro rfl
  rw [hd] at hc
  cases hc

/-- The parts of a number as the grammar has them: no zero in front, and no row of digits is empty
but an absent fraction. -/
structure Number.Spelled (n : Number) : Prop where
  whole : n.whole = ['0'] ∨
    ∃ d ds, n.whole = d :: ds ∧ d ≠ '0' ∧ ∀ c ∈ d :: ds, Text.isDigit c = true
  fraction : ∀ c ∈ n.fraction, Text.isDigit c = true
  exponent : ∀ e, n.exponent = some e → e.2 ≠ [] ∧ ∀ c ∈ e.2, Text.isDigit c = true

theorem Number.Spelled.whole_head {n : Number} (hn : n.Spelled) :
    ∃ d ds, n.whole = d :: ds ∧ Text.isDigit d = true := by
  rcases hn.whole with hw | ⟨d, ds, hw, _, hd⟩
  · exact ⟨'0', [], hw, rfl⟩
  · exact ⟨d, ds, hw, hd d (by simp)⟩

/-- An exponent, with either letter, and with a sign or without. -/
inductive SpellsExponent : Option (Bool × List Char) → List Char → Prop where
  | absent : SpellsExponent none []
  | bare {e : Char} (he : e = 'e' ∨ e = 'E') (ds : List Char) :
      SpellsExponent (some (false, ds)) (e :: ds)
  | plus {e : Char} (he : e = 'e' ∨ e = 'E') (ds : List Char) :
      SpellsExponent (some (false, ds)) (e :: '+' :: ds)
  | minus {e : Char} (he : e = 'e' ∨ e = 'E') (ds : List Char) :
      SpellsExponent (some (true, ds)) (e :: '-' :: ds)

/-- A number literal: its sign, its digits before the point and behind it, and its exponent. -/
def SpellsNumber (n : Number) (cs rest : List Char) : Prop :=
  n.Spelled ∧ ∃ exponent, SpellsExponent n.exponent exponent ∧
    cs = (if n.negative then ['-'] else []) ++ (n.whole ++
      ((if n.fraction.isEmpty then [] else '.' :: n.fraction) ++ (exponent ++ rest)))

theorem readDigits_split {cs ds rest : List Char} (h : readDigits cs = some (ds, rest)) :
    cs = ds ++ rest ∧ ds ≠ [] ∧ ∀ c ∈ ds, Text.isDigit c = true := by
  unfold readDigits at h
  split at h
  · cases h
  · rename_i hne
    cases h
    exact ⟨List.takeWhile_append_dropWhile.symm, hne,
      fun _ => List.all_eq_true.mp List.all_takeWhile _⟩

theorem readWhole_split {cs ds rest : List Char} (h : readWhole cs = some (ds, rest)) :
    cs = ds ++ rest ∧ (ds = ['0'] ∨
      ∃ e es, ds = e :: es ∧ e ≠ '0' ∧ ∀ c ∈ e :: es, Text.isDigit c = true) := by
  unfold readWhole at h
  split at h
  · cases h
    exact ⟨rfl, Or.inl rfl⟩
  · rename_i hzero
    obtain ⟨rfl, hne, hdigits⟩ := readDigits_split h
    obtain ⟨e, es, rfl⟩ := List.exists_cons_of_ne_nil hne
    refine ⟨rfl, Or.inr ⟨e, es, rfl, fun he => hzero (es ++ rest) ?_, hdigits⟩⟩
    rw [he]
    rfl

theorem readFraction_split {cs ds rest : List Char} (h : readFraction cs = some (ds, rest)) :
    cs = (if ds.isEmpty then [] else '.' :: ds) ++ rest ∧ ∀ c ∈ ds, Text.isDigit c = true := by
  unfold readFraction at h
  split at h
  · obtain ⟨rfl, hne, hdigits⟩ := readDigits_split h
    rw [if_neg (by simpa using hne)]
    exact ⟨rfl, hdigits⟩
  · cases h
    exact ⟨rfl, nofun⟩

theorem readSign_cases (cs : List Char) : (∃ ds, cs = '-' :: ds ∧ readSign cs = (true, ds)) ∨
    (∃ ds, cs = '+' :: ds ∧ readSign cs = (false, ds)) ∨ readSign cs = (false, cs) := by
  unfold readSign
  split
  · exact Or.inl ⟨_, rfl, rfl⟩
  · exact Or.inr (Or.inl ⟨_, rfl, rfl⟩)
  · exact Or.inr (Or.inr rfl)

/-- An exponent whose sign and digits have been read. -/
theorem spellsExponent_signed {e : Char} (he : e = 'e' ∨ e = 'E') {cs ds rest : List Char}
    (h : (readSign cs).2 = ds ++ rest) : ∃ exponent,
      SpellsExponent (some ((readSign cs).1, ds)) exponent ∧ e :: cs = exponent ++ rest := by
  rcases readSign_cases cs with ⟨after, rfl, hsign⟩ | ⟨after, rfl, hsign⟩ | hsign
  all_goals rw [hsign] at h ⊢
  · exact ⟨_, .minus he ds, by rw [show after = _ from h]; rfl⟩
  · exact ⟨_, .plus he ds, by rw [show after = _ from h]; rfl⟩
  · exact ⟨_, .bare he ds, by rw [show cs = _ from h]; rfl⟩

theorem readExponent_split {cs rest : List Char} {e : Option (Bool × List Char)}
    (h : readExponent cs = some (e, rest)) : ∃ exponent, SpellsExponent e exponent ∧
      cs = exponent ++ rest ∧ ∀ x, e = some x → x.2 ≠ [] ∧ ∀ c ∈ x.2, Text.isDigit c = true := by
  unfold readExponent at h
  split at h
  · rename_i c cs
    split at h
    · rename_i hletter
      simp only [Option.bind_eq_bind, Option.bind_eq_some_iff, Option.pure_def, Option.some.injEq,
        Prod.mk.injEq] at h
      obtain ⟨⟨ds, after⟩, hread, rfl, rfl⟩ := h
      obtain ⟨hsplit, hne, hdigits⟩ := readDigits_split hread
      obtain ⟨exponent, hspells, hcs⟩ :=
        spellsExponent_signed (by simpa using hletter) hsplit
      refine ⟨exponent, hspells, hcs, ?_⟩
      rintro _ ⟨⟩
      exact ⟨hne, hdigits⟩
    · cases h
      exact ⟨_, .absent, rfl, nofun⟩
  · cases h
    exact ⟨_, .absent, rfl, nofun⟩

theorem spellsNumber_of_read {cs rest : List Char} {n : Number}
    (h : readNumber cs = some (n, rest)) : SpellsNumber n cs rest := by
  have hminus : cs = (if (readMinus cs).1 then ['-'] else []) ++ (readMinus cs).2 := by
    unfold readMinus
    split <;> rfl
  simp only [readNumber, Option.bind_eq_bind, Option.bind_eq_some_iff, Option.pure_def,
    Option.some.injEq, Prod.mk.injEq] at h
  obtain ⟨⟨whole, cs₁⟩, hwhole, ⟨fraction, cs₂⟩, hfraction, ⟨e, cs₃⟩, hexponent, rfl, rfl⟩ := h
  obtain ⟨hcs, hwhole⟩ := readWhole_split hwhole
  obtain ⟨hcs₁, hfraction⟩ := readFraction_split hfraction
  obtain ⟨exponent, hspells, hcs₂, hexponent⟩ := readExponent_split hexponent
  refine ⟨⟨hwhole, hfraction, hexponent⟩, exponent, hspells, ?_⟩
  rw [← hcs₂, ← hcs₁, ← hcs]
  exact hminus

/-- Whether a text cannot carry on a number that ends before it. -/
def EndsNumber (rest : List Char) : Prop :=
  ∀ c cs, rest = c :: cs → Text.isDigit c = false ∧ c ≠ '.' ∧ c ≠ 'e' ∧ c ≠ 'E'

theorem EndsNumber.nil : EndsNumber [] := by
  intro c cs h
  cases h

theorem EndsNumber.cons {c : Char} {cs : List Char} (hd : Text.isDigit c = false) (hp : c ≠ '.')
    (he : c ≠ 'e') (hu : c ≠ 'E') : EndsNumber (c :: cs) := by
  intro d ds h
  cases h
  exact ⟨hd, hp, he, hu⟩

theorem readDigits_append (ds rest : List Char) (hn : ds ≠ [])
    (hd : ∀ c ∈ ds, Text.isDigit c = true) (hr : ∀ c cs, rest = c :: cs → Text.isDigit c = false) :
    readDigits (ds ++ rest) = some (ds, rest) := by
  have htake : (ds ++ rest).takeWhile Text.isDigit = ds := by
    rw [List.takeWhile_append_of_pos hd]
    cases rest with
    | nil => simp
    | cons c cs => simp [hr c cs rfl]
  have hdrop : (ds ++ rest).dropWhile Text.isDigit = rest := by
    rw [List.dropWhile_append_of_pos hd]
    cases rest with
    | nil => simp
    | cons c cs => simp [hr c cs rfl]
  rw [readDigits, htake, hdrop]
  cases ds with
  | nil => exact absurd rfl hn
  | cons d ds => rfl

theorem readFraction_append (ds tail : List Char) (hd : ∀ c ∈ ds, Text.isDigit c = true)
    (ht : ∀ c cs, tail = c :: cs → Text.isDigit c = false ∧ c ≠ '.') :
    readFraction ((if ds.isEmpty then [] else '.' :: ds) ++ tail) = some (ds, tail) := by
  cases ds with
  | nil =>
    simp only [List.isEmpty_nil, ↓reduceIte, List.nil_append]
    rw [readFraction]
    intro cs h
    exact (ht '.' cs h).2 rfl
  | cons d ds =>
    simp only [List.isEmpty_cons, Bool.false_eq_true, ↓reduceIte, List.cons_append, readFraction]
    exact readDigits_append (d :: ds) tail (by simp) hd fun c cs h => (ht c cs h).1

theorem readWhole_append (ds tail : List Char)
    (hd : ds = ['0'] ∨ ∃ e es, ds = e :: es ∧ e ≠ '0' ∧ ∀ c ∈ e :: es, Text.isDigit c = true)
    (ht : ∀ c cs, tail = c :: cs → Text.isDigit c = false) :
    readWhole (ds ++ tail) = some (ds, tail) := by
  rcases hd with rfl | ⟨e, es, rfl, hz, hd⟩
  · rfl
  · rw [List.cons_append, readWhole]
    · exact readDigits_append (e :: es) tail (by simp) hd ht
    · simpa using hz

theorem readMinus_append (negative : Bool) (d : Char) (cs : List Char)
    (hd : Text.isDigit d = true) :
    readMinus ((if negative then ['-'] else []) ++ d :: cs) = (negative, d :: cs) := by
  cases negative with
  | true => rfl
  | false =>
    have hm : d ≠ '-' := digit_ne hd rfl
    simp only [Bool.false_eq_true, ↓reduceIte, List.nil_append]
    rw [readMinus]
    simpa using hm

theorem SpellsExponent.read {e : Option (Bool × List Char)} {exponent rest : List Char}
    (h : SpellsExponent e exponent)
    (he : ∀ x, e = some x → x.2 ≠ [] ∧ ∀ c ∈ x.2, Text.isDigit c = true) (hr : EndsNumber rest) :
    readExponent (exponent ++ rest) = some (e, rest) := by
  have hdigits (ds : List Char) (hds : ds ≠ [] ∧ ∀ c ∈ ds, Text.isDigit c = true) :
      readDigits (ds ++ rest) = some (ds, rest) :=
    readDigits_append ds rest hds.1 hds.2 fun c cs h => (hr c cs h).1
  have hletter {e : Char} (h : e = 'e' ∨ e = 'E') : (e == 'e' || e == 'E') = Bool.true := by
    simpa using h
  cases h with
  | absent =>
    cases rest with
    | nil => rfl
    | cons c cs =>
      obtain ⟨-, -, hl, hu⟩ := hr c cs rfl
      simp [readExponent, hl, hu]
  | bare hl ds =>
    have hds := he _ rfl
    obtain ⟨d, ds, rfl⟩ := List.exists_cons_of_ne_nil hds.1
    have hd := hds.2 d List.mem_cons_self
    have hread := hdigits _ hds
    have hsign : readSign (d :: (ds ++ rest)) = (Bool.false, d :: (ds ++ rest)) := by
      rw [readSign]
      · simpa using digit_ne hd rfl
      · simpa using digit_ne hd rfl
    rw [List.cons_append] at hread
    simp [readExponent, hletter hl, hsign, hread]
  | plus hl ds => simp [readExponent, readSign, hletter hl, hdigits ds (he _ rfl)]
  | minus hl ds => simp [readExponent, readSign, hletter hl, hdigits ds (he _ rfl)]

/-- What an exponent and the text behind it start with ends a row of digits. -/
theorem SpellsExponent.ends {e : Option (Bool × List Char)} {exponent rest : List Char}
    (h : SpellsExponent e exponent) (hr : EndsNumber rest) :
    ∀ c cs, exponent ++ rest = c :: cs → Text.isDigit c = Bool.false ∧ c ≠ '.' := by
  have hletter {e c : Char} {cs ds : List Char} (he : e = 'e' ∨ e = 'E') (h : e :: cs = c :: ds) :
      Text.isDigit c = Bool.false ∧ c ≠ '.' := by
    cases h
    rcases he with rfl | rfl <;> decide
  intro c cs heq
  cases h with
  | absent => exact ⟨(hr c cs heq).1, (hr c cs heq).2.1⟩
  | bare he ds => exact hletter he heq
  | plus he ds => exact hletter he heq
  | minus he ds => exact hletter he heq

theorem SpellsNumber.head {n : Number} {cs rest : List Char} (h : SpellsNumber n cs rest) :
    ∃ c more, cs = c :: more ∧ (Text.isDigit c = true ∨ c = '-') := by
  obtain ⟨hn, exponent, -, rfl⟩ := h
  cases n.negative with
  | true => exact ⟨'-', _, rfl, Or.inr rfl⟩
  | false =>
    obtain ⟨d, ds, hw, hd⟩ := hn.whole_head
    exact ⟨d, _, by rw [hw]; rfl, Or.inl hd⟩

theorem SpellsNumber.length_lt {n : Number} {cs rest : List Char} (h : SpellsNumber n cs rest) :
    rest.length < cs.length := by
  obtain ⟨hn, exponent, -, rfl⟩ := h
  obtain ⟨d, ds, hw, -⟩ := hn.whole_head
  simp only [hw, List.length_append, List.length_cons]
  omega

theorem SpellsNumber.read {n : Number} {cs rest : List Char} (h : SpellsNumber n cs rest)
    (hr : EndsNumber rest) : readNumber cs = some (n, rest) := by
  obtain ⟨hn, exponent, hexponent, rfl⟩ := h
  have hends := hexponent.ends hr
  let tail := (if n.fraction.isEmpty then [] else '.' :: n.fraction) ++ (exponent ++ rest)
  have hminus : readMinus ((if n.negative then ['-'] else []) ++ (n.whole ++ tail)) =
      (n.negative, n.whole ++ tail) := by
    obtain ⟨d, ds, hw, hd⟩ := hn.whole_head
    rw [hw]
    exact readMinus_append n.negative d (ds ++ tail) hd
  have hwhole : readWhole (n.whole ++ tail) = some (n.whole, tail) := by
    refine readWhole_append n.whole tail hn.whole fun c cs htail => ?_
    cases hf : n.fraction with
    | nil =>
      simp only [tail, hf, List.isEmpty_nil, ↓reduceIte, List.nil_append] at htail
      exact (hends c cs htail).1
    | cons d ds =>
      simp only [tail, hf, List.isEmpty_cons, Bool.false_eq_true, ↓reduceIte, List.cons_append,
        List.cons.injEq] at htail
      rw [← htail.1]
      rfl
  have hfraction : readFraction tail = some (n.fraction, exponent ++ rest) :=
    readFraction_append n.fraction _ hn.fraction hends
  change readNumber ((if n.negative then ['-'] else []) ++ (n.whole ++ tail)) = _
  rw [readNumber, hminus]
  simp [hwhole, hfraction, hexponent.read hn.exponent hr]

end SignedConsole.Json
