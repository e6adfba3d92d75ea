import Mathlib.Tactic.Ring
import SignedConsole.Der

namespace SignedConsole

namespace Bytes

theorem toNat_from (start : Nat) (bs : Bytes) :
    bs.foldl (fun n b => 256 * n + b.toNat) start = start * 256 ^ bs.length + toNat bs := by
  induction bs generalizing start with
  | nil => simp [toNat]
  | cons b bs ih =>
    rw [toNat, List.foldl_cons, List.foldl_cons, ih, ih (256 * 0 + b.toNat), List.length_cons]
    ring

theorem toNat_cons (b : UInt8) (bs : Bytes) :
    toNat (b :: bs) = b.toNat * 256 ^ bs.length + toNat bs := by
  rw [toNat, List.foldl_cons, toNat_from, Nat.mul_zero, Nat.zero_add]

theorem toNat_lt (bs : Bytes) : toNat bs < 256 ^ bs.length := by
  induction bs with
  | nil => decide
  | cons b bs ih =>
    have hb : b.toNat ≤ 255 := Nat.le_of_lt_succ b.toNat_lt
    calc toNat (b :: bs) = b.toNat * 256 ^ bs.length + toNat bs := toNat_cons b bs
      _ < 255 * 256 ^ bs.length + 256 ^ bs.length :=
        Nat.add_lt_add_of_le_of_lt (Nat.mul_le_mul_right _ hb) ih
      _ = 256 ^ (b :: bs).length := by rw [List.length_cons]; ring

theorem bigEndian_succ (count n : Nat) :
    bigEndian (count + 1) n = UInt8.ofNat (n / 256 ^ count) :: bigEndian count n := by
  simp [bigEndian, List.range_succ]

theorem toNat_bigEndian (count n : Nat) : toNat (bigEndian count n) = n % 256 ^ count := by
  induction count with
  | zero => simp [bigEndian, toNat, Nat.mod_one]
  | succ count ih =>
    rw [bigEndian_succ, toNat_cons, ih, length_bigEndian, Nat.mod_pow_succ, UInt8.toNat_ofNat']
    ring

end Bytes

theorem byteLength_eq {n : Nat} (h : n ≠ 0) : byteLength n = n.log2 / 8 + 1 := by
  simp only [byteLength, bitLength, h, if_false]
  omega

theorem lt_pow_bitLength (n : Nat) : n < 2 ^ bitLength n := by
  unfold bitLength
  split
  · rename_i h
    rw [h]
    decide
  · exact Nat.lt_log2_self

theorem lt_pow_byteLength (n : Nat) : n < 256 ^ byteLength n := by
  calc n < 2 ^ bitLength n := lt_pow_bitLength n
    _ ≤ 2 ^ (8 * byteLength n) := Nat.pow_le_pow_right (by decide) (by unfold byteLength; omega)
    _ = 256 ^ byteLength n := by rw [Nat.pow_mul]

theorem pow_byteLength_le {n : Nat} (h : n ≠ 0) : 256 ^ (byteLength n - 1) ≤ n := by
  calc 256 ^ (byteLength n - 1) = 2 ^ (8 * (n.log2 / 8)) := by
        rw [byteLength_eq h, Nat.add_sub_cancel, Nat.pow_mul]
    _ ≤ 2 ^ n.log2 := Nat.pow_le_pow_right (by decide) (by omega)
    _ ≤ n := Nat.log2_self_le h

/-- The digits of a positive number do not start with a zero. -/
theorem bigEndian_head {n : Nat} (h : n ≠ 0) : ∃ b bs, b ≠ 0 ∧
    Bytes.bigEndian (byteLength n) n = b :: bs := by
  have hsucc : byteLength n = byteLength n - 1 + 1 := by rw [byteLength_eq h]; omega
  have hpos : 0 < n / 256 ^ (byteLength n - 1) :=
    Nat.div_pos (pow_byteLength_le h) (Nat.pow_pos (by decide))
  have hlt : n / 256 ^ (byteLength n - 1) < 256 := by
    have hn := lt_pow_byteLength n
    rw [hsucc, Nat.pow_succ] at hn
    exact Nat.div_lt_of_lt_mul hn
  refine ⟨UInt8.ofNat (n / 256 ^ (byteLength n - 1)), Bytes.bigEndian (byteLength n - 1) n, ?_, ?_⟩
  · intro hzero
    have hvalue := congrArg UInt8.toNat hzero
    rw [UInt8.toNat_ofNat_of_lt' hlt] at hvalue
    exact Nat.ne_of_gt hpos hvalue
  · rw [← Bytes.bigEndian_succ, ← hsucc]

namespace Der

theorem readLength_lengthBytes {n : Nat} (h : n < 65536) (rest : Bytes) :
    readLength (lengthBytes n ++ rest) = some (n, rest) := by
  have hlow : (UInt8.ofNat n).toNat = n % 256 := UInt8.toNat_ofNat'
  have hhigh : (UInt8.ofNat (n / 256)).toNat = n / 256 := by
    rw [UInt8.toNat_ofNat']
    omega
  unfold lengthBytes
  split
  · rename_i hshort
    have hb : UInt8.ofNat n < 0x80 := by
      rw [UInt8.lt_iff_toNat_lt, hlow]
      exact Nat.lt_of_le_of_lt (Nat.mod_le _ _) hshort
    simp only [List.cons_append, List.nil_append, readLength, hb, if_true, hlow]
    rw [Nat.mod_eq_of_lt (by omega)]
  · split
    · rename_i hlong hbyte
      have hx : 0x80 ≤ UInt8.ofNat n := by
        rw [UInt8.le_iff_toNat_le, hlow, Nat.mod_eq_of_lt hbyte]
        exact Nat.le_of_not_lt hlong
      simp [readLength, hx, hlow, Nat.mod_eq_of_lt hbyte]
    · rename_i hbyte
      have hx : UInt8.ofNat (n / 256) ≠ 0 := by
        intro hzero
        have hvalue := congrArg UInt8.toNat hzero
        rw [hhigh, UInt8.toNat_zero] at hvalue
        omega
      simp [readLength, hx, hlow, hhigh]
      omega

theorem lengthBytes_le (n : Nat) : (lengthBytes n).length ≤ 3 := by
  unfold lengthBytes
  split
  · exact Nat.le_of_ble_eq_true rfl
  · split <;> exact Nat.le_of_ble_eq_true rfl

theorem length_element_le (tag : UInt8) (content : Bytes) :
    (element tag content).length ≤ content.length + 4 := by
  have hlength := lengthBytes_le content.length
  simp only [element, List.length_cons, List.length_append, List.cons_append]
  omega

theorem readTagged_append {tag : UInt8} (htag : tag &&& 0x1F ≠ 0x1F) {content : Bytes}
    (h : content.length < 65536) (rest : Bytes) :
    readTagged tag (element tag content ++ rest) = some (content, rest) := by
  have hlength := readLength_lengthBytes h (content ++ rest)
  simp [readTagged, element, readElement, htag, hlength]

theorem readTagged_alone {tag : UInt8} (htag : tag &&& 0x1F ≠ 0x1F) {content : Bytes}
    (h : content.length < 65536) : readTagged tag (element tag content) = some (content, []) := by
  have hread := readTagged_append htag h []
  rwa [List.append_nil] at hread

/-- The tag of an element is its first byte. -/
theorem tag_of_readTagged {tag : UInt8} {bs : Bytes} {found : Bytes × Bytes}
    (h : readTagged tag bs = some found) : bs.head? = some tag := by
  obtain ⟨⟨t, content, rest⟩, hread, htag⟩ := Option.bind_eq_some_iff.mp h
  have hsame : t = tag := by
    by_contra hne
    simp [hne] at htag
  cases bs with
  | nil => cases hread
  | cons first bs =>
    simp only [readElement] at hread
    split at hread
    · cases hread
    · obtain ⟨_, _, hread⟩ := Option.bind_eq_some_iff.mp hread
      split at hread
      · cases hread
        rw [List.head?_cons, hsame]
      · cases hread

/-- A positive number is read as its digits. -/
theorem readNatural_append {n : Nat} (hn : n ≠ 0) (h : byteLength n < 65535) (rest : Bytes) :
    readNatural (natural n ++ rest) = some (Bytes.bigEndian (byteLength n) n, rest) := by
  obtain ⟨b, bs, hb, hdigits⟩ := bigEndian_head hn
  have hlength : bs.length + 1 = byteLength n := by
    rw [← Bytes.length_bigEndian (byteLength n) n, hdigits, List.length_cons]
  rw [natural, hdigits, List.headD_cons]
  by_cases hsmall : b < 0x80
  · have hread : readTagged integerTag (element integerTag (b :: bs) ++ rest) = some (b :: bs, rest) :=
      readTagged_append (by decide) (by rw [List.length_cons]; omega) rest
    have hmagnitude : magnitude (b :: bs) = some (b :: bs) := by
      cases bs <;> simp [magnitude, hb, hsmall]
    simp [readNatural, hsmall, hread, hmagnitude]
  · have hread : readTagged integerTag (element integerTag (0 :: b :: bs) ++ rest) =
        some (0 :: b :: bs, rest) :=
      readTagged_append (by decide) (by simp only [List.length_cons]; omega) rest
    have hmagnitude : magnitude (0 :: b :: bs) = some (b :: bs) := by
      simp [magnitude, UInt8.not_lt.mp hsmall]
    simp [readNatural, hsmall, hread, hmagnitude]

theorem length_natural_le (n : Nat) : (natural n).length ≤ byteLength n + 5 := by
  have hdigits := Bytes.length_bigEndian (byteLength n) n
  have hplain := length_element_le integerTag (Bytes.bigEndian (byteLength n) n)
  have hzero := length_element_le integerTag (0 :: Bytes.bigEndian (byteLength n) n)
  rw [List.length_cons] at hzero
  rw [natural]
  by_cases h : (Bytes.bigEndian (byteLength n) n).headD 0 < 0x80
  · rw [if_pos h]
    omega
  · rw [if_neg h]
    omega

end Der
end SignedConsole
