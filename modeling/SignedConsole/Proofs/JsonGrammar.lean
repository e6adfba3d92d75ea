import SignedConsole.Proofs.JsonTokens
import SignedConsole.Text.Blank

namespace SignedConsole.Json

/-- White space between two tokens. -/
def Blanks (cs rest : List Char) : Prop :=
  ∃ space, (∀ c ∈ space, isSpace c = true) ∧ cs = space ++ rest

/-- What a stretch of text may be: a value, or what is left of an array or of an object from the
start of an item or a member. -/
inductive Part where
  | value (j : Json)
  | items (vs : List Json)
  | members (ms : List (Option String × Json))

/-- The texts of a part, each with the text behind it. -/
inductive Spells : Part → List Char → List Char → Prop where
  | null (rest : List Char) : Spells (.value .null) ('n' :: 'u' :: 'l' :: 'l' :: rest) rest
  | true (rest : List Char) : Spells (.value (.bool true)) ('t' :: 'r' :: 'u' :: 'e' :: rest) rest
  | false (rest : List Char) :
      Spells (.value (.bool false)) ('f' :: 'a' :: 'l' :: 's' :: 'e' :: rest) rest
  | number {n : Number} {cs rest : List Char} (h : SpellsNumber n cs rest) :
      Spells (.value (.number n)) cs rest
  | text {ps : List Piece} {cs rest : List Char} (h : SpellsPieces ps cs rest) :
      Spells (.value (.text (textOf ps))) ('"' :: cs) rest
  | noItems {cs rest : List Char} (h : Blanks cs (']' :: rest)) :
      Spells (.value (.array [])) ('[' :: cs) rest
  | array {vs : List Json} {cs inner rest : List Char} (hs : Blanks cs inner)
      (h : Spells (.items vs) inner rest) : Spells (.value (.array vs)) ('[' :: cs) rest
  | noMembers {cs rest : List Char} (h : Blanks cs ('\x7d' :: rest)) :
      Spells (.value (.object [])) ('\x7b' :: cs) rest
  | object {ms : List (Option String × Json)} {cs inner rest : List Char} (hs : Blanks cs inner)
      (h : Spells (.members ms) inner rest) : Spells (.value (.object ms)) ('\x7b' :: cs) rest
  | lastItem {v : Json} {cs after rest : List Char} (h : Spells (.value v) cs after)
      (hs : Blanks after (']' :: rest)) : Spells (.items [v]) cs rest
  | item {v : Json} {vs : List Json} {cs after more next rest : List Char}
      (h : Spells (.value v) cs after) (hs : Blanks after (',' :: more)) (ht : Blanks more next)
      (hn : Spells (.items vs) next rest) : Spells (.items (v :: vs)) cs rest
  | lastMember {ps : List Piece} {v : Json} {cs key more value after rest : List Char}
      (hk : SpellsPieces ps cs key) (hc : Blanks key (':' :: more)) (hm : Blanks more value)
      (h : Spells (.value v) value after) (hs : Blanks after ('\x7d' :: rest)) :
      Spells (.members [(textOf ps, v)]) ('"' :: cs) rest
  | member {ps : List Piece} {v : Json} {ms : List (Option String × Json)}
      {cs key more value after others next rest : List Char} (hk : SpellsPieces ps cs key)
      (hc : Blanks key (':' :: more)) (hm : Blanks more value) (h : Spells (.value v) value after)
      (hs : Blanks after (',' :: others)) (ht : Blanks others next)
      (hn : Spells (.members ms) next rest) :
      Spells (.members ((textOf ps, v) :: ms)) ('"' :: cs) rest

/-- A text that spells a document and nothing else. -/
def Document (text : String) (j : Json) : Prop :=
  ∃ cs rest, Blanks text.toList cs ∧ Spells (.value j) cs rest ∧ Blanks rest []

theorem Blanks.refl (cs : List Char) : Blanks cs cs := ⟨[], nofun, rfl⟩

theorem Blanks.cons {c : Char} {cs rest : List Char} (hc : isSpace c = true)
    (h : Blanks cs rest) : Blanks (c :: cs) rest := by
  obtain ⟨space, hspace, rfl⟩ := h
  exact ⟨c :: space, List.forall_mem_cons.mpr ⟨hc, hspace⟩, rfl⟩

theorem blanks_skip (cs : List Char) : Blanks cs (skipSpace cs) :=
  ⟨cs.takeWhile isSpace, fun _ => List.all_eq_true.mp List.all_takeWhile _,
    List.takeWhile_append_dropWhile.symm⟩

theorem blanks_of_skip {cs rest : List Char} (h : skipSpace cs = rest) : Blanks cs rest :=
  h ▸ blanks_skip cs

/-- The three readers follow the grammar, however many steps they are given. -/
theorem spells_of_read (steps : Nat) :
    (∀ cs j rest, readValue steps cs = some (j, rest) → Spells (.value j) cs rest) ∧
    (∀ cs vs rest, readItems steps cs = some (vs, rest) → Spells (.items vs) cs rest) ∧
    ∀ cs ms rest, readMembers steps cs = some (ms, rest) → Spells (.members ms) cs rest := by
  induction steps with
  | zero =>
    refine ⟨fun _ _ _ h => ?_, fun _ _ _ h => ?_, fun _ _ _ h => ?_⟩
    · rw [readValue] at h
      cases h
    · rw [readItems] at h
      cases h
    · rw [readMembers] at h
      cases h
  | succ steps ih =>
    obtain ⟨hvalue, hitems, hmembers⟩ := ih
    refine ⟨fun cs j rest h => ?_, fun cs vs rest h => ?_, fun cs ms rest h => ?_⟩
    · unfold readValue at h
      split at h
      · cases ‹_ = _›
      · cases h
        exact .null rest
      · cases h
        exact .true rest
      · cases h
        exact .false rest
      · obtain ⟨⟨t, after⟩, hread, heq⟩ := Option.map_eq_some_iff.mp h
        cases heq
        obtain ⟨ps, hps, rfl⟩ := spells_of_readText hread
        exact .text hps
      · cases ‹steps + 1 = _›
        split at h
        · cases h
          exact .noItems (blanks_of_skip ‹_›)
        · obtain ⟨⟨vs, after⟩, hread, heq⟩ := Option.map_eq_some_iff.mp h
          cases heq
          exact .array (blanks_skip _) (hitems _ _ _ hread)
      · cases ‹steps + 1 = _›
        split at h
        · cases h
          exact .noMembers (blanks_of_skip ‹_›)
        · obtain ⟨⟨ms, after⟩, hread, heq⟩ := Option.map_eq_some_iff.mp h
          cases heq
          exact .object (blanks_skip _) (hmembers _ _ _ hread)
      · obtain ⟨⟨n, after⟩, hread, heq⟩ := Option.map_eq_some_iff.mp h
        cases heq
        exact .number (spellsNumber_of_read hread)
    · rw [readItems] at h
      simp only [Option.bind_eq_bind, Option.bind_eq_some_iff] at h
      obtain ⟨⟨v, after⟩, hv, h⟩ := h
      dsimp only at h
      split at h
      · simp only [Option.bind_eq_some_iff, Option.pure_def, Option.some.injEq,
          Prod.mk.injEq] at h
        obtain ⟨⟨vs, last⟩, hvs, rfl, rfl⟩ := h
        exact .item (hvalue _ _ _ hv) (blanks_of_skip ‹_›) (blanks_skip _) (hitems _ _ _ hvs)
      · cases h
        exact .lastItem (hvalue _ _ _ hv) (blanks_of_skip ‹_›)
      · cases h
    · unfold readMembers at h
      split at h
      · cases ‹_ = _›
      · cases ‹steps + 1 = _›
        simp only [Option.bind_eq_bind, Option.bind_eq_some_iff] at h
        obtain ⟨⟨k, key⟩, hk, h⟩ := h
        obtain ⟨ps, hps, rfl⟩ := spells_of_readText hk
        dsimp only at h
        split at h
        · simp only [Option.bind_eq_some_iff] at h
          obtain ⟨⟨v, after⟩, hv, h⟩ := h
          dsimp only at h
          split at h
          · simp only [Option.bind_eq_some_iff, Option.pure_def, Option.some.injEq,
              Prod.mk.injEq] at h
            obtain ⟨⟨ms, last⟩, hms, rfl, rfl⟩ := h
            exact .member hps (blanks_of_skip ‹_›) (blanks_skip _) (hvalue _ _ _ hv)
              (blanks_of_skip ‹_›) (blanks_skip _) (hmembers _ _ _ hms)
          · cases h
            exact .lastMember hps (blanks_of_skip ‹_›) (blanks_skip _) (hvalue _ _ _ hv)
              (blanks_of_skip ‹_›)
          · cases h
        · cases h
      · cases h

theorem skipSpace_cons {c : Char} (cs : List Char) (hc : isSpace c = false) :
    skipSpace (c :: cs) = c :: cs := by
  simp [skipSpace, hc]

theorem Blanks.skip {c : Char} {cs rest : List Char} (h : Blanks cs (c :: rest))
    (hc : isSpace c = Bool.false) : skipSpace cs = c :: rest := by
  obtain ⟨space, hspace, rfl⟩ := h
  rw [skipSpace, List.dropWhile_append_of_pos hspace]
  exact skipSpace_cons rest hc

theorem Blanks.skip_all {cs : List Char} (h : Blanks cs []) : skipSpace cs = [] := by
  obtain ⟨space, hspace, rfl⟩ := h
  rw [skipSpace, List.dropWhile_append_of_pos hspace]
  rfl

/-- No number goes on behind white space, so none goes on in front of what ends one. -/
theorem Blanks.ends {cs rest : List Char} (h : Blanks cs rest) (hr : EndsNumber rest) :
    EndsNumber cs := by
  obtain ⟨space, hspace, rfl⟩ := h
  cases space with
  | nil => exact hr
  | cons c space =>
    have hc : c = ' ' ∨ c = '\n' ∨ c = '\t' ∨ c = '\r' := by
      simpa [isSpace, or_assoc] using hspace c List.mem_cons_self
    rcases hc with rfl | rfl | rfl | rfl <;>
      exact .cons (by decide) (by decide) (by decide) (by decide)

theorem Blanks.length_le {cs rest : List Char} (h : Blanks cs rest) : rest.length ≤ cs.length := by
  obtain ⟨space, -, rfl⟩ := h
  simp

/-- What a part starts with: no white space, and nothing that closes a list. -/
def Opens (c : Char) : Prop := isSpace c = false ∧ c ≠ ']' ∧ c ≠ '\x7d'

instance (c : Char) : Decidable (Opens c) := inferInstanceAs (Decidable (_ ∧ _))

theorem digit_opens {c : Char} (hc : Text.isDigit c = true) : Opens c := by
  refine ⟨?_, digit_ne hc rfl, digit_ne hc rfl⟩
  have h1 : c ≠ ' ' := digit_ne hc rfl
  have h2 : c ≠ '\n' := digit_ne hc rfl
  have h3 : c ≠ '\t' := digit_ne hc rfl
  have h4 : c ≠ '\r' := digit_ne hc rfl
  simp [isSpace, h1, h2, h3, h4]

/-- A part starts like a number, with a quote or a bracket, or like a keyword. -/
theorem Spells.first {p : Part} {cs rest : List Char} (h : Spells p cs rest) :
    ∃ c more, cs = c :: more ∧
      (Text.isDigit c = Bool.true ∨ c ∈ ['-', '"', '[', '\x7b', 'n', 't', 'f']) := by
  induction h with
  | number h =>
    obtain ⟨c, more, rfl, hc⟩ := h.head
    exact ⟨c, more, rfl, hc.imp_right fun hc => by simp [hc]⟩
  | lastItem _ _ ih => exact ih
  | item _ _ _ _ ih _ => exact ih
  | _ => exact ⟨_, _, rfl, Or.inr (by simp)⟩

/-- A part starts with a character that is no white space and closes nothing. -/
theorem Spells.head {p : Part} {cs rest : List Char} (h : Spells p cs rest) :
    ∃ c more, cs = c :: more ∧ Opens c := by
  obtain ⟨c, more, rfl, hc | hc⟩ := h.first
  · exact ⟨c, more, rfl, digit_opens hc⟩
  · simp only [List.mem_cons, List.not_mem_nil, or_false] at hc
    rcases hc with rfl | rfl | rfl | rfl | rfl | rfl | rfl <;> exact ⟨_, more, rfl, by decide⟩

theorem digit_not_blank {c : Char} (h : Text.isDigit c = true) : Text.isBlank c = false := by
  simp only [Text.isDigit, Bool.and_eq_true, decide_eq_true_eq, Char.le_def, UInt32.le_iff_toNat_le]
    at h
  change 48 ≤ c.toNat ∧ c.toNat ≤ 57 at h
  simp [Text.isBlank]
  omega

/-- Nor does a part start with the white space of other alphabets. -/
theorem Spells.head_solid {p : Part} {cs rest : List Char} (h : Spells p cs rest) :
    ∃ c more, cs = c :: more ∧ Text.isBlank c = Bool.false := by
  obtain ⟨c, more, rfl, hc | hc⟩ := h.first
  · exact ⟨c, more, rfl, digit_not_blank hc⟩
  · simp only [List.mem_cons, List.not_mem_nil, or_false] at hc
    rcases hc with rfl | rfl | rfl | rfl | rfl | rfl | rfl <;> exact ⟨_, more, rfl, by decide⟩

theorem Spells.length_lt {p : Part} {cs rest : List Char} (h : Spells p cs rest) :
    rest.length < cs.length := by
  induction h with
  | null rest | true rest | false rest =>
    simp only [List.length_cons]
    omega
  | number h => exact h.length_lt
  | text h => exact Nat.lt_succ_of_lt h.length_lt
  | noItems h | noMembers h =>
    have hlen := h.length_le
    simp only [List.length_cons] at hlen ⊢
    omega
  | array hs _ ih | object hs _ ih =>
    have hlen := hs.length_le
    simp only [List.length_cons]
    omega
  | lastItem _ hs ih =>
    have hlen := hs.length_le
    simp only [List.length_cons] at hlen
    omega
  | item _ hs ht _ ih ihn =>
    have hlen := hs.length_le
    have hnext := ht.length_le
    simp only [List.length_cons] at hlen
    omega
  | lastMember hk hc hm _ hs ih =>
    have hkey := hk.length_lt
    have hcolon := hc.length_le
    have hmore := hm.length_le
    have hlen := hs.length_le
    simp only [List.length_cons] at hcolon hlen ⊢
    omega
  | member hk hc hm _ hs ht _ ih ihn =>
    have hkey := hk.length_lt
    have hcolon := hc.length_le
    have hmore := hm.length_le
    have hlen := hs.length_le
    have hnext := ht.length_le
    simp only [List.length_cons] at hcolon hlen ⊢
    omega

/-- What the readers come to for a part. A number is only known to end where another text begins. -/
def Part.Reads (cs rest : List Char) (steps : Nat) : Part → Prop
  | .value j => EndsNumber rest → readValue steps cs = some (j, rest)
  | .items vs => readItems steps cs = some (vs, rest)
  | .members ms => readMembers steps cs = some (ms, rest)

/-- No keyword, quote or bracket starts like a number. -/
theorem SpellsNumber.readValue {n : Number} {cs rest : List Char} (h : SpellsNumber n cs rest)
    (hr : EndsNumber rest) (steps : Nat) : readValue (steps + 1) cs = some (.number n, rest) := by
  have hread := h.read hr
  obtain ⟨c, more, rfl, hc⟩ := h.head
  have hne : ∀ d, Text.isDigit d = Bool.false → d ≠ '-' → c ≠ d := by
    intro d hdigit hminus
    rcases hc with hc | rfl
    · exact digit_ne hc hdigit
    · exact hminus.symm
  rw [Json.readValue]
  · rw [hread]
    rfl
  all_goals
    intro _ heq
    exact hne _ (by decide) (by decide) (List.cons.inj heq).1

theorem readValue_array {vs : List Json} {cs inner rest : List Char} {steps : Nat}
    (hs : Blanks cs inner) (hi : ∃ c more, inner = c :: more ∧ Opens c)
    (h : readItems steps inner = some (vs, rest)) :
    readValue (steps + 1) ('[' :: cs) = some (.array vs, rest) := by
  obtain ⟨c, more, rfl, hc⟩ := hi
  rw [readValue, hs.skip hc.1]
  split
  · rename_i heq
    exact absurd (List.cons.inj heq).1 hc.2.1
  · rw [h]
    rfl

theorem readValue_object {ms : List (Option String × Json)} {cs inner rest : List Char}
    {steps : Nat} (hs : Blanks cs inner) (hi : ∃ c more, inner = c :: more ∧ Opens c)
    (h : readMembers steps inner = some (ms, rest)) :
    readValue (steps + 1) ('\x7b' :: cs) = some (.object ms, rest) := by
  obtain ⟨c, more, rfl, hc⟩ := hi
  rw [readValue, hs.skip hc.1]
  split
  · rename_i heq
    exact absurd (List.cons.inj heq).1 hc.2.2
  · rw [h]
    rfl

theorem endsNumber_cons {c : Char} (rest : List Char) (hc : c = ',' ∨ c = ']' ∨ c = '\x7d') :
    EndsNumber (c :: rest) := by
  rcases hc with rfl | rfl | rfl <;>
    exact .cons (by decide) (by decide) (by decide) (by decide)

/-- A part is read from the front of the text that it stands in, with two steps for each of its
characters. -/
theorem Spells.read {p : Part} {cs rest : List Char} (h : Spells p cs rest) (steps : Nat)
    (hlen : 2 * cs.length ≤ steps + 2 * rest.length) : p.Reads cs rest steps := by
  induction steps generalizing p cs rest with
  | zero =>
    have hlt := h.length_lt
    omega
  | succ n ih =>
    cases h with
    | null | true | false => exact fun _ => by rw [readValue]
    | number h => exact fun hr => h.readValue hr n
    | text h => exact fun _ => by rw [readValue, h.readText, Option.map_some]
    | noItems h | noMembers h =>
      intro _
      rw [readValue, h.skip rfl]
      rfl
    | array hs h =>
      have hinner := hs.length_le
      simp only [List.length_cons] at hlen
      exact fun _ => readValue_array hs h.head (ih h (by omega))
    | object hs h =>
      have hinner := hs.length_le
      simp only [List.length_cons] at hlen
      exact fun _ => readValue_object hs h.head (ih h (by omega))
    | lastItem h hs =>
      have hafter := hs.length_le
      simp only [List.length_cons] at hafter
      have hv := ih h (by omega) (hs.ends (endsNumber_cons _ (by simp)))
      change readItems (n + 1) _ = _
      simp [readItems, hv, hs.skip rfl]
    | @item v vs _ after more next _ h hs ht hn =>
      have hafter := hs.length_le
      have hnext := ht.length_le
      have hlt := h.length_lt
      have hlt' := hn.length_lt
      simp only [List.length_cons] at hafter
      have hv := ih h (by omega) (hs.ends (endsNumber_cons _ (by simp)))
      have hvs : readItems n next = some (vs, rest) := ih hn (by omega)
      obtain ⟨c, behind, rfl, hc⟩ := hn.head
      change readItems (n + 1) _ = _
      simp [readItems, hv, hs.skip rfl, ht.skip hc.1, hvs]
    | lastMember hk hc hm h hs =>
      have hkey := hk.length_lt
      have hcolon := hc.length_le
      have hmore := hm.length_le
      have hafter := hs.length_le
      simp only [List.length_cons] at hlen hcolon hafter
      have hv := ih h (by omega) (hs.ends (endsNumber_cons _ (by simp)))
      obtain ⟨c, behind, rfl, hopens⟩ := h.head
      change readMembers (n + 1) _ = _
      simp [readMembers, hk.readText, hc.skip rfl, hm.skip hopens.1, hv, hs.skip rfl]
    | @member ps v ms _ key more value after others next _ hk hc hm h hs ht hn =>
      have hkey := hk.length_lt
      have hcolon := hc.length_le
      have hmore := hm.length_le
      have hafter := hs.length_le
      have hnext := ht.length_le
      have hlt := h.length_lt
      have hlt' := hn.length_lt
      simp only [List.length_cons] at hlen hcolon hafter
      have hv := ih h (by omega) (hs.ends (endsNumber_cons _ (by simp)))
      have hms : readMembers n next = some (ms, rest) := ih hn (by omega)
      obtain ⟨c, behind, rfl, hopens⟩ := h.head
      obtain ⟨c', behind', rfl, hopens'⟩ := hn.head
      change readMembers (n + 1) _ = _
      simp [readMembers, hk.readText, hc.skip rfl, hm.skip hopens.1, hv, hs.skip rfl,
        ht.skip hopens'.1, hms]

/-- A text is read as the document that it spells, and as none if it spells none. -/
theorem read_iff_document {text : String} {j : Json} : read text = some j ↔ Document text j := by
  constructor
  · intro h
    simp only [Json.read, Option.bind_eq_bind, Option.bind_eq_some_iff] at h
    obtain ⟨⟨v, rest⟩, hv, hend⟩ := h
    dsimp only at hend
    split at hend
    · rename_i hrest
      cases hend
      exact ⟨_, rest, blanks_skip _, (spells_of_read _).1 _ _ _ hv,
        blanks_of_skip (List.isEmpty_iff.mp hrest)⟩
    · cases hend
  · rintro ⟨cs, rest, hcs, hv, hrest⟩
    obtain ⟨c, more, rfl, hc⟩ := hv.head
    have hread := hv.read (stepsFor (c :: more)) (by simp [stepsFor]; omega) (hrest.ends .nil)
    simp [Json.read, hcs.skip hc.1, hread, hrest.skip_all]

/-- A text that spells a document is not blank. -/
theorem Document.not_blank {text : String} {j : Json} (h : Document text j) :
    text.toList.all Text.isBlank = Bool.false := by
  obtain ⟨cs, rest, ⟨space, -, htext⟩, hv, -⟩ := h
  obtain ⟨c, more, rfl, hc⟩ := hv.head_solid
  simp [htext, hc]

end SignedConsole.Json
