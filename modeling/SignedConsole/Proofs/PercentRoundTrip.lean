import SignedConsole.Url

namespace SignedConsole.Url

def isHexDigit (c : Char) : Bool := (Text.hexValue? c).isSome

/-- Whether two hexadecimal digits come first. -/
def startsByte (cs : List Char) : Bool := cs.head?.any isHexDigit && cs.tail.head?.any isHexDigit

/-- Whether a percent sign stands before two hexadecimal digits somewhere. -/
def hasEscape : List Char → Bool
  | [] => false
  | c :: cs => c == '%' && startsByte cs || hasEscape cs

theorem byte_isSome (a b : Char) : (byte? a b).isSome = (isHexDigit a && isHexDigit b) := by
  unfold byte? isHexDigit
  cases Text.hexValue? a <;> cases Text.hexValue? b <;> rfl

theorem percentDecode_other {c : Char} (h : c ≠ '%') (cs : List Char) :
    percentDecode (c :: cs) = String.utf8EncodeChar c ++ percentDecode cs := by
  rw [percentDecode]
  intro a b rest hc
  exact absurd hc h

theorem percentDecode_alone {cs : List Char} (h : startsByte cs = false) :
    percentDecode ('%' :: cs) = String.utf8EncodeChar '%' ++ percentDecode cs := by
  match cs with
  | [] => rfl
  | [a] => rfl
  | a :: b :: rest =>
    have hsome : (byte? a b).isSome = false := (byte_isSome a b).trans h
    have hbyte : byte? a b = none := by simpa using hsome
    rw [percentDecode, hbyte]

theorem percentDecode_escape {a b : Char} {byte : UInt8} (h : byte? a b = some byte)
    (cs : List Char) : percentDecode ('%' :: a :: b :: cs) = byte :: percentDecode cs := by
  rw [percentDecode, h]

theorem startsByte_of_short {cs : List Char} (h : ∀ a b rest, cs ≠ a :: b :: rest) :
    startsByte cs = false := by
  match cs with
  | [] => rfl
  | [a] => simp [startsByte]
  | a :: b :: rest => exact absurd rfl (h a b rest)

theorem hexValue_upper : ∀ n < 16, Text.hexValue? (upperHexDigit n) = some n := by decide

theorem byte_percent (b : UInt8) :
    byte? (upperHexDigit (b.toNat / 16)) (upperHexDigit (b.toNat % 16)) = some b := by
  have hb : b.toNat < 256 := UInt8.toNat_lt b
  rw [byte?, hexValue_upper _ (by omega), hexValue_upper _ (by omega)]
  change some (UInt8.ofNat (16 * (b.toNat / 16) + b.toNat % 16)) = some b
  rw [Nat.div_add_mod, UInt8.ofNat_toNat]

theorem percentDecode_bytes (bs : Bytes) (cs : List Char) :
    percentDecode (bs.flatMap percentByte ++ cs) = bs ++ percentDecode cs := by
  induction bs with
  | nil => rfl
  | cons b bs ih =>
    rw [List.flatMap_cons, percentByte, List.append_assoc]
    simp only [List.cons_append, List.nil_append]
    rw [percentDecode_escape (byte_percent b), ih]

/-- What one character is spelled as. -/
def spelled (set : Char → Bool) (c : Char) : List Char :=
  if set c then (String.utf8EncodeChar c).flatMap percentByte else [c]

theorem percentEncode_chars (set : Char → Bool) (cs : List Char) :
    (percentEncode set cs).toList = cs.flatMap (spelled set) := by
  rw [percentEncode, String.toList_ofList]
  rfl

/-- Sets that leave percent signs and digits as they are. -/
structure KeepsEscapes (set : Char → Bool) : Prop where
  percent : set '%' = false
  digits : ∀ c, isHexDigit c = true → set c = false

theorem spelled_starts (set : Char → Bool) {c : Char} (h : set c = true) :
    ∃ cs, spelled set c = '%' :: cs := by
  rw [spelled, if_pos h]
  cases hbytes : String.utf8EncodeChar c with
  | nil =>
    have hsize := c.utf8Size_pos
    rw [← String.length_utf8EncodeChar, hbytes] at hsize
    cases hsize
  | cons b bs => exact ⟨_, rfl⟩

section
variable {set : Char → Bool} (hset : KeepsEscapes set)

include hset

theorem head_digit_spelled (cs : List Char) :
    (cs.flatMap (spelled set)).head?.any isHexDigit = cs.head?.any isHexDigit := by
  cases cs with
  | nil => rfl
  | cons c cs =>
    cases hc : set c with
    | false => simp [spelled, hc]
    | true =>
      obtain ⟨rest, hrest⟩ := spelled_starts set hc
      have hdigit : isHexDigit c = false := by
        rw [← Bool.not_eq_true]
        intro hdigit
        rw [hset.digits c hdigit] at hc
        cases hc
      have hpercent : isHexDigit '%' = false := rfl
      simp [hrest, hdigit, hpercent]

theorem startsByte_spelled (cs : List Char) :
    startsByte (cs.flatMap (spelled set)) = startsByte cs := by
  have hhead := head_digit_spelled hset cs
  unfold startsByte
  rw [hhead]
  cases cs with
  | nil => rfl
  | cons c cs =>
    cases hc : set c with
    | false =>
      have htail := head_digit_spelled hset cs
      simp [spelled, hc, htail]
    | true =>
      have hdigit : isHexDigit c = false := by
        obtain ⟨rest, hrest⟩ := spelled_starts set hc
        rw [List.flatMap_cons, hrest] at hhead
        exact hhead.symm
      simp [hdigit]

/-- Spelling characters out does not change what a text stands for. -/
theorem percentDecode_spelled (cs : List Char) :
    percentDecode (cs.flatMap (spelled set)) = percentDecode cs := by
  have hpercent : spelled set '%' = ['%'] := by simp [spelled, hset.percent]
  induction cs using percentDecode.induct with
  | case1 a b cs byte hbyte ih =>
    have hdigits := byte_isSome a b
    rw [hbyte, Option.isSome_some, eq_comm, Bool.and_eq_true] at hdigits
    have ha : spelled set a = [a] := by simp [spelled, hset.digits a hdigits.1]
    have hb : spelled set b = [b] := by simp [spelled, hset.digits b hdigits.2]
    simp only [List.flatMap_cons, hpercent, ha, hb, List.cons_append, List.nil_append]
    rw [percentDecode_escape hbyte, percentDecode_escape hbyte, ih]
  | case2 a b cs hnone ih =>
    have halone : startsByte (a :: b :: cs) = false := by
      simpa [startsByte, hnone] using (byte_isSome a b).symm
    rw [List.flatMap_cons, hpercent, List.singleton_append, percentDecode_alone halone,
      percentDecode_alone (by rw [startsByte_spelled hset, halone]), ih]
  | case3 c cs hne ih =>
    rw [List.flatMap_cons]
    cases hc : set c with
    | true =>
      have hother : c ≠ '%' := by
        rintro rfl
        rw [hset.percent] at hc
        cases hc
      rw [spelled, if_pos hc, percentDecode_bytes, percentDecode_other hother, ih]
    | false =>
      have hsame : spelled set c = [c] := by simp [spelled, hc]
      rw [hsame, List.singleton_append]
      by_cases hother : c = '%'
      · subst hother
        have halone := startsByte_of_short fun a b rest => hne a b rest rfl
        rw [percentDecode_alone halone,
          percentDecode_alone (by rw [startsByte_spelled hset, halone]), ih]
      · rw [percentDecode_other hother, percentDecode_other hother, ih]
  | case4 => rfl

end

theorem percentDecode_encode {set : Char → Bool} (hset : KeepsEscapes set) (cs : List Char) :
    percentDecode (percentEncode set cs).toList = percentDecode cs := by
  rw [percentEncode_chars, percentDecode_spelled hset]

/-- A text of other characters is spelled as it is. -/
theorem percentEncode_same {set : Char → Bool} {cs : List Char} (h : ∀ c ∈ cs, set c = false) :
    (percentEncode set cs).toList = cs := by
  rw [percentEncode_chars]
  induction cs with
  | nil => rfl
  | cons c cs ih =>
    have hc : spelled set c = [c] := by simp [spelled, h c List.mem_cons_self]
    rw [List.flatMap_cons, hc, ih fun d hd => h d (List.mem_cons_of_mem _ hd)]
    rfl

theorem isHexDigit_lt {c : Char} (h : isHexDigit c = true) : c.toNat < 128 := by
  unfold isHexDigit Text.hexValue? Text.isDigit at h
  simp only [Bool.and_eq_true, decide_eq_true_eq] at h
  have hle (d : Char) (hd : c ≤ d) : c.toNat ≤ d.toNat := hd
  split at h
  · rename_i hc
    exact Nat.lt_of_le_of_lt (hle _ hc.2) (by decide)
  split at h
  · rename_i hc
    exact Nat.lt_of_le_of_lt (hle _ hc.2) (by decide)
  split at h
  · rename_i hc
    exact Nat.lt_of_le_of_lt (hle _ hc.2) (by decide)
  · cases h

theorem pathSet_keeps : KeepsEscapes pathSet where
  percent := rfl
  digits c h := by
    have hall : ∀ n < 128, isHexDigit (Char.ofNat n) = true → pathSet (Char.ofNat n) = false := by
      decide
    have hc := hall c.toNat (isHexDigit_lt h)
    rw [Char.ofNat_toNat] at hc
    exact hc h

/-- A text without escapes stands for itself. -/
theorem percentDecode_plain {cs : List Char} (h : hasEscape cs = false) :
    percentDecode cs = cs.flatMap String.utf8EncodeChar := by
  induction cs with
  | nil => rfl
  | cons c cs ih =>
    obtain ⟨hhead, htail⟩ := Bool.or_eq_false_iff.mp h
    rw [List.flatMap_cons, ← ih htail]
    by_cases hc : c = '%'
    · subst hc
      exact percentDecode_alone (by simpa using hhead)
    · exact percentDecode_other hc cs

/-- A text stands for no more bytes than it has, and for fewer if there are escapes in it. -/
theorem percentDecode_length (cs : List Char) :
    (percentDecode cs).length ≤ (cs.flatMap String.utf8EncodeChar).length ∧
      (hasEscape cs = true →
        (percentDecode cs).length < (cs.flatMap String.utf8EncodeChar).length) := by
  -- The statement for the rest of a text, with one character before it that stands for itself.
  have hcons {c : Char} {cs : List Char} {bs : Bytes}
      (hdecode : percentDecode (c :: cs) = String.utf8EncodeChar c ++ bs)
      (hescape : hasEscape (c :: cs) = hasEscape cs)
      (h : bs.length ≤ (cs.flatMap String.utf8EncodeChar).length ∧ (hasEscape cs = true →
        bs.length < (cs.flatMap String.utf8EncodeChar).length)) :
      (percentDecode (c :: cs)).length ≤ ((c :: cs).flatMap String.utf8EncodeChar).length ∧
        (hasEscape (c :: cs) = true → (percentDecode (c :: cs)).length <
          ((c :: cs).flatMap String.utf8EncodeChar).length) := by
    rw [hdecode, hescape, List.flatMap_cons, List.length_append, List.length_append]
    exact ⟨Nat.add_le_add_left h.1 _, fun he => Nat.add_lt_add_left (h.2 he) _⟩
  induction cs using percentDecode.induct with
  | case1 a b cs byte hbyte ih =>
    have hshort : (percentDecode ('%' :: a :: b :: cs)).length <
        (('%' :: a :: b :: cs).flatMap String.utf8EncodeChar).length := by
      have ha := a.utf8Size_pos
      have hb := b.utf8Size_pos
      have hp := ('%').utf8Size_pos
      rw [percentDecode_escape hbyte]
      simp only [List.flatMap_cons, List.length_append, List.length_cons,
        String.length_utf8EncodeChar]
      omega
    exact ⟨Nat.le_of_lt hshort, fun _ => hshort⟩
  | case2 a b cs hnone ih =>
    have halone : startsByte (a :: b :: cs) = false := by
      simpa [startsByte, hnone] using (byte_isSome a b).symm
    exact hcons (percentDecode_alone halone) (by simp [hasEscape, halone]) ih
  | case3 c cs hne ih =>
    by_cases hother : c = '%'
    · subst hother
      have halone := startsByte_of_short fun a b rest => hne a b rest rfl
      exact hcons (percentDecode_alone halone) (by simp [hasEscape, halone]) ih
    · exact hcons (percentDecode_other hother cs) (by simp [hasEscape, hother]) ih
  | case4 => exact ⟨Nat.le_refl _, nofun⟩

end SignedConsole.Url
