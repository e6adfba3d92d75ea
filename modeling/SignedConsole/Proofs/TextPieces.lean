import SignedConsole.Text.Blank
import SignedConsole.Text.Digits

namespace SignedConsole.Text

theorem none_of_any {p : Char → Bool} {cs : List Char} (h : cs.any p = false) :
    ∀ c ∈ cs, p c = false := by
  intro c hc
  simpa using List.any_eq_false.mp h c hc

theorem splitWith_append (p : Char → Bool) {s : Char} (hs : p s = true) (xs ys : List Char) :
    splitWith p (xs ++ s :: ys) = splitWith p xs ++ splitWith p ys := by
  induction xs with
  | nil => simp [splitWith, hs]
  | cons c cs ih =>
    rw [List.cons_append, splitWith, splitWith, ih]
    split
    · rfl
    · cases h : splitWith p cs with
      | nil => exact absurd h (splitWith_ne_nil p cs)
      | cons w ws => rfl

theorem splitWith_none {p : Char → Bool} {cs : List Char} (h : ∀ c ∈ cs, p c = false) :
    splitWith p cs = [cs] := by
  induction cs with
  | nil => rfl
  | cons c cs ih =>
    rw [splitWith, ih fun c hc => h c (List.mem_cons_of_mem _ hc)]
    simp [h c List.mem_cons_self]

/-- Words behind separators are pieces of their own. -/
theorem splitWith_joined {p : Char → Bool} {s : Char} (hs : p s = true) (cs : List Char)
    {words : List (List Char)} (h : ∀ w ∈ words, ∀ c ∈ w, p c = false) :
    splitWith p (cs ++ words.flatMap (s :: ·)) = splitWith p cs ++ words := by
  induction words generalizing cs with
  | nil => simp
  | cons w words ih =>
    rw [List.flatMap_cons, List.cons_append, splitWith_append p hs,
      ih w fun v hv => h v (List.mem_cons_of_mem _ hv),
      splitWith_none (h w List.mem_cons_self), List.singleton_append]

/-- The first piece stands at the front, and the others behind it. -/
theorem splitWith_cons (p : Char → Bool) (cs : List Char) : ∃ w ws, splitWith p cs = w :: ws ∧
    w <+: cs ∧ ∀ v ∈ ws, v <:+: cs := by
  induction cs with
  | nil => exact ⟨[], [], rfl, List.nil_prefix, nofun⟩
  | cons c cs ih =>
    obtain ⟨w, ws, hsplit, hfirst, hothers⟩ := ih
    rw [splitWith]
    split
    · refine ⟨[], _, rfl, List.nil_prefix, ?_⟩
      intro v hv
      rw [hsplit] at hv
      rcases List.mem_cons.mp hv with rfl | hv
      · exact List.infix_cons hfirst.isInfix
      · exact List.infix_cons (hothers v hv)
    · rw [hsplit]
      refine ⟨c :: w, ws, rfl, ?_, fun v hv => List.infix_cons (hothers v hv)⟩
      obtain ⟨rest, hrest⟩ := hfirst
      exact ⟨rest, by rw [List.cons_append, hrest]⟩

theorem splitWith_within {p : Char → Bool} {cs w : List Char} (h : w ∈ splitWith p cs) :
    w <:+: cs := by
  obtain ⟨first, others, hsplit, hfirst, hothers⟩ := splitWith_cons p cs
  rw [hsplit] at h
  rcases List.mem_cons.mp h with rfl | h
  · exact hfirst.isInfix
  · exact hothers w h

/-- No piece holds a separator. -/
theorem splitWith_free {p : Char → Bool} {cs w : List Char} (h : w ∈ splitWith p cs) :
    ∀ c ∈ w, p c = false := by
  induction cs generalizing w with
  | nil =>
    rw [List.mem_singleton.mp h]
    exact nofun
  | cons c cs ih =>
    rw [splitWith] at h
    split at h
    · rcases List.mem_cons.mp h with rfl | h
      · exact nofun
      · exact ih h
    · rename_i hc
      split at h
      · rename_i hnone
        exact absurd hnone (splitWith_ne_nil p cs)
      · rename_i first others hsplit
        rw [hsplit] at ih
        rcases List.mem_cons.mp h with rfl | h
        · intro d hd
          rcases List.mem_cons.mp hd with rfl | hd
          · exact Bool.eq_false_iff.mpr hc
          · exact ih List.mem_cons_self d hd
        · exact ih (List.mem_cons_of_mem _ h)

/-- Words are not empty, and hold no white space. -/
theorem words_solid {line word : String} (h : word ∈ words line) :
    word.toList ≠ [] ∧ ∀ c ∈ word.toList, isBlank c = false := by
  obtain ⟨w, hw, rfl⟩ := List.mem_map.mp h
  obtain ⟨hw, hne⟩ := List.mem_filter.mp hw
  rw [String.toList_ofList]
  refine ⟨?_, splitWith_free hw⟩
  rintro rfl
  cases hne

/-- The pieces of a text that are not empty. -/
def solidPieces (p : Char → Bool) (cs : List Char) : List (List Char) :=
  (splitWith p cs).filter fun w => !w.isEmpty

theorem solidPieces_drop (p : Char → Bool) (cs : List Char) :
    solidPieces p (cs.dropWhile p) = solidPieces p cs := by
  induction cs with
  | nil => rfl
  | cons c cs ih =>
    rw [List.dropWhile_cons]
    split
    · rename_i hc
      rw [ih, solidPieces, solidPieces, splitWith, if_pos hc]
      rfl
    · rfl

theorem solidPieces_drop_end (p : Char → Bool) (cs : List Char) :
    solidPieces p (cs.dropWhile p).reverse = solidPieces p cs.reverse := by
  induction cs with
  | nil => rfl
  | cons c cs ih =>
    rw [List.dropWhile_cons]
    split
    · rename_i hc
      rw [ih, List.reverse_cons, solidPieces, solidPieces, splitWith_append p hc,
        List.filter_append]
      exact (List.append_nil _).symm
    · rfl

/-- White space at the ends makes no words. -/
theorem words_trim (line : String) : words (trim line) = words line := by
  have hstart := solidPieces_drop isBlank line.toList
  have hend := solidPieces_drop_end isBlank (trimStart line.toList).reverse
  rw [List.reverse_reverse, trimStart, hstart] at hend
  rw [words, trim, String.toList_ofList]
  exact congrArg (List.map String.ofList) hend

theorem digitsValue_digits (n : Nat) : digitsValue (digits n) = n := by
  have h := @Nat.ofDigitChars_ten_toDigits n
  rw [Nat.ofDigitChars_eq_foldl] at h
  exact h

/-- Only zero has a zero in front. -/
theorem digits_head {n : Nat} (h : n ≠ 0) : ∃ d ds, digits n = d :: ds ∧ d ≠ '0' := by
  induction n using Nat.strongRecOn with
  | ind n ih =>
    unfold digits at ih ⊢
    by_cases hlt : n < 10
    · have hdigit : ∀ m, m < 10 → m ≠ 0 → m.digitChar ≠ '0' := by decide
      exact ⟨n.digitChar, [], Nat.toDigits_of_lt_base hlt, hdigit n hlt h⟩
    · obtain ⟨d, ds, hd, hne⟩ := ih (n / 10) (by omega) (by omega)
      refine ⟨d, ds ++ [(n % 10).digitChar], ?_, hne⟩
      rw [Nat.toDigits_of_base_le (by decide) (by omega), hd, List.cons_append]

theorem digits_are_digits {n : Nat} {c : Char} (h : c ∈ digits n) : isDigit c = true :=
  Nat.isDigit_of_mem_toDigits (by decide) (by decide) h

theorem decimal_digit {n : Nat} {c : Char} (h : c ∈ (decimal n).toList) : isDigit c = true := by
  rw [decimal, String.toList_ofList] at h
  exact digits_are_digits h

theorem decimal_injective {m n : Nat} (h : decimal m = decimal n) : m = n := by
  have hdigits := congrArg (fun s => digitsValue s.toList) h
  simpa only [decimal, String.toList_ofList, digitsValue_digits] using hdigits

end SignedConsole.Text
