import SignedConsole.Text.Utf8

namespace SignedConsole.Text

/-- A byte that carries six bits of a character on. -/
def tail (n : Nat) : UInt8 := UInt8.ofNat (n % 64 + 0x80)

theorem tail_value (n : Nat) : (tail n).toNat = n % 64 + 0x80 := by
  have h : n % 64 + 0x80 < 256 := by omega
  simp [tail, Nat.mod_eq_of_lt h]

theorem tail_between {low high : UInt8} {n : Nat} (hl : low.toNat ≤ n % 64 + 0x80)
    (hh : n % 64 + 0x80 ≤ high.toNat) : (low ≤ tail n && tail n ≤ high) = true := by
  rw [← tail_value] at hl hh
  simp only [Bool.and_eq_true, decide_eq_true_eq]
  exact ⟨UInt8.le_iff_toNat_le.mpr hl, UInt8.le_iff_toNat_le.mpr hh⟩

theorem tail_continues (n : Nat) : (0x80 ≤ tail n && tail n ≤ 0xBF) = true := by
  refine tail_between ?_ ?_ <;> simp only [UInt8.reduceToNat] <;> omega

theorem continuation_tail {ok : UInt8 → Bool} {count n m : Nat} {rest : Bytes}
    (h : ok (tail m) = true) :
    continuation ok (count + 1) n (tail m :: rest) =
      continuation (fun x => 0x80 ≤ x && x ≤ 0xBF) count (n * 64 + m % 64) rest := by
  rw [continuation, if_pos h, tail_value, Nat.add_sub_cancel]

/-- What comes right behind a lead byte must not make an overlong form, a surrogate or too large a
number, and does not in the bytes of a character. -/
theorem mayFollow_tail (lead : UInt8) (m : Nat) (h0 : lead.toNat = 0xE0 → 0x20 ≤ m % 64)
    (hd : lead.toNat = 0xED → m % 64 < 0x20) (hf : lead.toNat = 0xF0 → 0x10 ≤ m % 64)
    (h4 : lead.toNat = 0xF4 → m % 64 < 0x10) : mayFollow lead (tail m) = true := by
  have heq (k : UInt8) : (lead == k) = true ↔ lead.toNat = k.toNat := by
    rw [beq_iff_eq, UInt8.toNat_inj]
  unfold mayFollow
  simp only [heq]
  -- One case for each lead byte with a narrower range.
  split
  · rename_i hlead
    have h := h0 hlead
    refine tail_between ?_ ?_ <;> simp only [UInt8.reduceToNat] <;> omega
  split
  · rename_i hlead
    have h := hd hlead
    refine tail_between ?_ ?_ <;> simp only [UInt8.reduceToNat] <;> omega
  split
  · rename_i hlead
    have h := hf hlead
    refine tail_between ?_ ?_ <;> simp only [UInt8.reduceToNat] <;> omega
  split
  · rename_i hlead
    have h := h4 hlead
    refine tail_between ?_ ?_ <;> simp only [UInt8.reduceToNat] <;> omega
  · exact tail_continues m

theorem lead_of_one : ∀ n < 0x80, leadByte? (UInt8.ofNat n) = some (1, n) := by decide

theorem lead_of_two : ∀ n < 0x20, 2 ≤ n →
    leadByte? (UInt8.ofNat (n % 0x20 + 0xC0)) = some (2, n) := by decide

theorem lead_of_three : ∀ n < 0x10, leadByte? (UInt8.ofNat (n % 0x10 + 0xE0)) = some (3, n) := by
  decide

theorem lead_of_four : ∀ n ≤ 4, leadByte? (UInt8.ofNat (n % 0x08 + 0xF0)) = some (4, n) := by
  decide

theorem byte_value {n : Nat} (h : n < 256) : (UInt8.ofNat n).toNat = n := by
  simp [Nat.mod_eq_of_lt h]

/-- A character is read from the bits of its lead byte and those that its tails carry on. -/
theorem decodeChar_of_continuation {c : Char} {v count bits : Nat} {lead : UInt8} {bs rest : Bytes}
    (hchar : Char.ofNat v = c) (hlead : leadByte? lead = some (count + 1, bits))
    (hread : continuation (mayFollow lead) count bits bs = (some v, rest)) :
    decodeChar? lead bs = (some c, rest) := by
  simp only [decodeChar?, hlead, Nat.add_one_sub_one, hread, hchar]

/-- Reading takes one character as it was written, whatever follows. -/
theorem decodeChar_encoded (c : Char) (rest : Bytes) : ∃ b bs,
    String.utf8EncodeChar c = b :: bs ∧ decodeChar? b (bs ++ rest) = (some c, rest) := by
  have hchar : Char.ofNat c.val.toNat = c := Char.ofNat_toNat c
  have hvalid : c.val.toNat < 0xD800 ∨ 0xDFFF < c.val.toNat ∧ c.val.toNat < 0x110000 := c.valid
  unfold String.utf8EncodeChar
  generalize c.val.toNat = v at hchar hvalid
  dsimp only
  split
  · refine ⟨_, _, rfl, ?_⟩
    exact decodeChar_of_continuation hchar (lead_of_one v (by omega)) rfl
  split
  · refine ⟨_, _, rfl, ?_⟩
    have hfirst := mayFollow_tail (UInt8.ofNat (v / 64 % 0x20 + 0xC0)) v
    rw [byte_value (by omega)] at hfirst
    have hjoin : v / 64 * 64 + v % 64 = v := by omega
    have hread : continuation (mayFollow (UInt8.ofNat (v / 64 % 0x20 + 0xC0))) 1 (v / 64)
        (tail v :: rest) = (some v, rest) := by
      rw [continuation_tail (hfirst (by omega) (by omega) (by omega) (by omega)), hjoin]
      rfl
    exact decodeChar_of_continuation hchar (lead_of_two (v / 64) (by omega) (by omega)) hread
  split
  · refine ⟨_, _, rfl, ?_⟩
    have hfirst := mayFollow_tail (UInt8.ofNat (v / 4096 % 0x10 + 0xE0)) (v / 64)
    rw [byte_value (by omega)] at hfirst
    have hjoin : (v / 4096 * 64 + v / 64 % 64) * 64 + v % 64 = v := by omega
    have hread : continuation (mayFollow (UInt8.ofNat (v / 4096 % 0x10 + 0xE0))) 2 (v / 4096)
        (tail (v / 64) :: tail v :: rest) = (some v, rest) := by
      rw [continuation_tail (hfirst (by omega) (by omega) (by omega) (by omega)),
        continuation_tail (tail_continues v), hjoin]
      rfl
    exact decodeChar_of_continuation hchar (lead_of_three (v / 4096) (by omega)) hread
  · refine ⟨_, _, rfl, ?_⟩
    have hfirst := mayFollow_tail (UInt8.ofNat (v / 262144 % 0x08 + 0xF0)) (v / 4096)
    rw [byte_value (by omega)] at hfirst
    have hjoin : ((v / 262144 * 64 + v / 4096 % 64) * 64 + v / 64 % 64) * 64 + v % 64 = v := by
      omega
    have hread : continuation (mayFollow (UInt8.ofNat (v / 262144 % 0x08 + 0xF0))) 3 (v / 262144)
        (tail (v / 4096) :: tail (v / 64) :: tail v :: rest) = (some v, rest) := by
      rw [continuation_tail (hfirst (by omega) (by omega) (by omega) (by omega)),
        continuation_tail (tail_continues (v / 64)), continuation_tail (tail_continues v), hjoin]
      rfl
    exact decodeChar_of_continuation hchar (lead_of_four (v / 262144) (by omega)) hread

theorem decodeAll_encoded (cs : List Char) :
    decodeAll (cs.flatMap String.utf8EncodeChar) = cs.map some := by
  induction cs with
  | nil => rw [List.flatMap_nil, decodeAll, List.map_nil]
  | cons c cs ih =>
    obtain ⟨b, bs, hbytes, hread⟩ := decodeChar_encoded c (cs.flatMap String.utf8EncodeChar)
    rw [List.flatMap_cons, hbytes, List.cons_append, decodeAll, hread, ih, List.map_cons]

theorem ofUtf8_utf8 (s : String) : ofUtf8? (utf8 s) = some s := by
  have hall : (s.toList.map some).mapM id = some s.toList := by
    rw [List.mapM_map]
    exact (List.mapM_pure (m := Option) (f := id)).trans (by simp)
  rw [ofUtf8?, utf8, decodeAll_encoded, hall, Option.map_some, String.ofList_toList]

theorem utf8_injective {s t : String} (h : utf8 s = utf8 t) : s = t := by
  have hread := congrArg ofUtf8? h
  rw [ofUtf8_utf8, ofUtf8_utf8] at hread
  exact Option.some.inj hread

end SignedConsole.Text
