import Mathlib.Algebra.Order.Ring.Rat
import Mathlib.Tactic.Linarith
import Mathlib.Tactic.Ring
import SignedConsole.Console.Size
import SignedConsole.Proofs.RoundedNumbers
import SignedConsole.Proofs.TextPieces

namespace SignedConsole.Size

/-- The number of a shown size, in hundredths, and the index of its unit. -/
def shown? (text : String) : Option (Nat × Nat) :=
  let whole := text.toList.takeWhile Text.isDigit
  match text.toList.dropWhile Text.isDigit with
  | '.' :: a :: b :: ' ' :: name =>
    if !whole.isEmpty && Text.isDigit a && Text.isDigit b then
      (units.idxOf? (String.ofList name)).map fun unit => (Text.digitsValue (whole ++ [a, b]), unit)
    else none
  | _ => none

/-- The number of bytes that a text shows, in hundredths. No bytes are shown without decimals. -/
def shownHundredths? (text : String) : Option Nat :=
  match shown? text with
  | some (number, unit) => some (number * 1024 ^ unit)
  | none => if text = "0 B" then some 0 else none

theorem digitChar_isDigit : ∀ d < 10, Text.isDigit d.digitChar = true ∧ d.digitChar.toNat - 48 = d := by
  decide

theorem digits_of_one {d : Nat} (h : d < 10) : Text.digits d = [d.digitChar] :=
  Nat.toDigits_of_lt_base h

theorem digitsValue_append (n : Nat) {a b : Nat} (ha : a < 10) (hb : b < 10) :
    Text.digitsValue (Text.digits n ++ [a.digitChar, b.digitChar]) = 100 * n + 10 * a + b := by
  have hn := Text.digitsValue_digits n
  unfold Text.digitsValue at hn ⊢
  rw [List.foldl_append, hn, List.foldl_cons, List.foldl_cons, List.foldl_nil, (digitChar_isDigit a ha).2,
    (digitChar_isDigit b hb).2]
  omega

theorem unit_named : ∀ k ≤ 3, units.idxOf? (units.getD k "") = some k := by decide

/-- A number of hundredths and a unit are read as they are written. -/
theorem shown_twoDecimals (n : Nat) {name : String} {k : Nat} (hk : units.idxOf? name = some k) :
    shown? (twoDecimals n ++ " " ++ name) = some (n, k) := by
  have htenth : n / 10 % 10 < 10 := Nat.mod_lt _ (by decide)
  have hlast : n % 10 < 10 := Nat.mod_lt _ (by decide)
  have htext : (twoDecimals n ++ " " ++ name).toList =
      Text.digits (n / 100) ++ '.' :: (n / 10 % 10).digitChar :: (n % 10).digitChar :: ' ' ::
        name.toList := by
    simp [twoDecimals, Text.decimal, digits_of_one htenth, digits_of_one hlast]
  have hdigits : ∀ c ∈ Text.digits (n / 100), Text.isDigit c = true :=
    fun c hc => Text.digits_are_digits hc
  have hfull : (Text.digits (n / 100)).isEmpty = false := by
    simp [Text.digits]
  have hpoint : Text.isDigit '.' = false := by decide
  have hvalue : 100 * (n / 100) + 10 * (n / 10 % 10) + n % 10 = n := by omega
  simp only [shown?, htext, List.takeWhile_append_of_pos hdigits,
    List.dropWhile_append_of_pos hdigits, List.takeWhile_cons, List.dropWhile_cons, hpoint]
  simp [hfull, digitChar_isDigit _ htenth, digitChar_isDigit _ hlast, hk, digitsValue_append _ htenth hlast,
    hvalue]

/-- The largest of the four units that a number of bytes reaches. -/
structure LargestUnit (bytes k : Nat) : Prop where
  known : k ≤ 3
  reached : 1024 ^ k ≤ bytes
  largest : ∀ j ≤ 3, 1024 ^ j ≤ bytes → j ≤ k

/-- Dividing goes on to a unit that is reached, and stops only at the last one or before one that is
not. -/
theorem unitFrom_stops {n unit : Nat} (left : Nat) (h : 1024 ^ unit ≤ n) :
    let k := unitFrom n unit left
    k ≤ unit + left ∧ 1024 ^ k ≤ n ∧ (k < unit + left → n < 1024 ^ (k + 1)) := by
  induction left generalizing unit with
  | zero => exact ⟨Nat.le_refl _, h, fun hlt => absurd hlt (Nat.lt_irrefl _)⟩
  | succ left ih =>
    have hnext : 1024 * Nat.pow 1024 unit = 1024 ^ (unit + 1) := (Nat.pow_succ').symm
    rw [unitFrom, hnext]
    split
    · rename_i hreached
      have hrest := ih hreached
      rwa [Nat.add_right_comm] at hrest
    · rename_i hless
      exact ⟨Nat.le_add_right _ _, h, fun _ => Nat.lt_of_not_le hless⟩

theorem largestUnit_unitIndex {n : Nat} (h : 1 ≤ n) : LargestUnit n (unitIndex n) := by
  have hstart : 1024 ^ 0 ≤ n := h
  obtain ⟨hknown, hreached, hstop⟩ := unitFrom_stops 3 hstart
  refine ⟨hknown, hreached, fun j hj hjn => Nat.le_of_not_lt fun hlt => ?_⟩
  have hpow : 1024 ^ (unitIndex n + 1) ≤ 1024 ^ j := Nat.pow_le_pow_right (by decide) hlt
  exact absurd (hstop (Nat.lt_of_lt_of_le hlt hj)) (Nat.not_lt.mpr (hpow.trans hjn))

/-- The units are far below the numbers that are no doubles. -/
theorem unit_le_double_iff {j n : Nat} (hj : j ≤ 3) :
    1024 ^ j ≤ Rounding.double n ↔ 1024 ^ j ≤ n := by
  obtain hn | hn := Nat.le_total n (2 ^ 53)
  · rw [Rounding.double_exact hn]
  · have hunit : 1024 ^ j ≤ 2 ^ 53 :=
      (Nat.pow_le_pow_right (by decide) hj).trans (by decide : 1024 ^ 3 ≤ 2 ^ 53)
    exact ⟨fun _ => hunit.trans hn, fun _ => hunit.trans (Rounding.pow_le_double hn)⟩

theorem LargestUnit.of_double {n k : Nat} (h : LargestUnit (Rounding.double n) k) :
    LargestUnit n k :=
  ⟨h.known, (unit_le_double_iff h.known).mp h.reached,
    fun j hj hjn => h.largest j hj ((unit_le_double_iff hj).mpr hjn)⟩

/-- The unit of a size. -/
def unitOf (bytes : Nat) : Nat := unitIndex (Rounding.double bytes)

theorem unitOf_largest {n : Nat} (h : 1 ≤ n) : LargestUnit (Rounding.double n) (unitOf n) :=
  largestUnit_unitIndex (Rounding.pow_le_double (e := 0) h)

theorem hundredths_eq (n : Nat) :
    hundredths n = Rounding.quotient (100 * Rounding.double n) (1024 ^ unitOf n) := rfl

theorem shown_format {n : Nat} (h : 1 ≤ n) : shown? (format n) = some (hundredths n, unitOf n) := by
  rw [format, if_neg (Nat.ne_of_gt h)]
  exact shown_twoDecimals _ (unit_named _ (unitOf_largest h).known)

theorem unit_pos (k : Nat) : 0 < 1024 ^ k := Nat.pow_pos (by decide)

/-- Sixty-four binary digits are rounded to doubles by 1024 at most. -/
theorem double_off {n : Nat} (h : n < 2 ^ 64) :
    let off := if 2 ^ 53 < n then 1024 else 0
    Rounding.double n ≤ n + off ∧ n ≤ Rounding.double n + off := by
  intro off
  by_cases hn : 2 ^ 53 < n
  · have hoff : off = 1024 := if_pos hn
    have hspacing := Rounding.spacing_le h
    have hnear := Rounding.double_near n
    omega
  · have hoff : off = 0 := if_neg hn
    rw [Rounding.double_exact (Nat.le_of_not_lt hn), hoff]
    exact ⟨Nat.le_refl n, Nat.le_refl n⟩

/-- The number in its unit is off by half a hundredth and by the rounding to a double. -/
theorem hundredths_accurate {n : Nat} (h : n < 2 ^ 64) :
    |(hundredths n : ℚ) / 100 * 1024 ^ unitOf n - n| ≤
      1024 ^ unitOf n / 100 / 2 + if 2 ^ 53 < n then 1024 else 0 := by
  obtain ⟨hover, hunder⟩ := double_off h
  obtain ⟨hmore, hless⟩ := Rounding.quotient_near (100 * Rounding.double n) (unit_pos (unitOf n))
  rw [← hundredths_eq] at hmore hless
  have hcast : (if 2 ^ 53 < n then 1024 else 0 : ℚ) = (if 2 ^ 53 < n then 1024 else 0 : Nat) := by
    split <;> norm_num
  rw [hcast]
  generalize (if 2 ^ 53 < n then 1024 else 0 : Nat) = off at hover hunder
  have hover : (Rounding.double n : ℚ) ≤ n + off := by exact_mod_cast hover
  have hunder : (n : ℚ) ≤ Rounding.double n + off := by exact_mod_cast hunder
  have hmore : 2 * ((hundredths n : ℚ) * 1024 ^ unitOf n) ≤
      2 * (100 * Rounding.double n) + 1024 ^ unitOf n := by exact_mod_cast hmore
  have hless : 2 * (100 * (Rounding.double n : ℚ)) ≤
      2 * (hundredths n * 1024 ^ unitOf n) + 1024 ^ unitOf n := by exact_mod_cast hless
  rw [div_mul_eq_mul_div, abs_le]
  constructor <;> linarith

/-- A size in a smaller unit is shown as a hundred hundredths of the next unit at most, and one in a
larger unit as no less. -/
theorem shown_mono {m n k l : Nat} (hk : LargestUnit m k) (hl : LargestUnit n l) (h : m ≤ n) :
    Rounding.quotient (100 * m) (1024 ^ k) * 1024 ^ k ≤
      Rounding.quotient (100 * n) (1024 ^ l) * 1024 ^ l := by
  have hunits : k ≤ l := hl.largest k hk.known (hk.reached.trans h)
  obtain rfl | hlt := Nat.eq_or_lt_of_le hunits
  · exact Nat.mul_le_mul_right _
      (Rounding.quotient_mono (unit_pos k) (Nat.mul_le_mul_left 100 h))
  · have hbelow : m ≤ 1024 ^ l := Nat.le_of_not_lt fun hreached =>
      absurd (hk.largest l hl.known hreached.le) (Nat.not_le.mpr hlt)
    calc Rounding.quotient (100 * m) (1024 ^ k) * 1024 ^ k ≤ 100 * 1024 ^ l :=
          Rounding.quotient_mul_le (unit_pos k)
            (Dvd.dvd.mul_left (Nat.pow_dvd_pow 1024 hunits) 100) (Nat.mul_le_mul_left 100 hbelow)
      _ ≤ Rounding.quotient (100 * n) (1024 ^ l) * 1024 ^ l :=
          Rounding.le_quotient_mul (unit_pos l) (Nat.dvd_mul_left _ _)
            (Nat.mul_le_mul_left 100 hl.reached)

theorem shownHundredths_zero : shownHundredths? (format 0) = some 0 := by decide

theorem shownHundredths_format {n : Nat} (h : 1 ≤ n) :
    shownHundredths? (format n) = some (hundredths n * 1024 ^ unitOf n) := by
  rw [shownHundredths?, shown_format h]

/-- A size of at least one byte is shown with two decimals in the largest unit that it reaches. What
is shown is off by half a hundredth of the unit at most, and above 2⁵³ bytes by 1024 bytes more. Of
two sizes the larger one is not shown as less, whatever their units are. -/
theorem sizes_are_accurate :
    (∀ n, 1 ≤ n → n < 2 ^ 64 → ∃ number unit, shown? (format n) = some (number, unit) ∧
      LargestUnit n unit ∧
      |(number : ℚ) / 100 * 1024 ^ unit - n| ≤
        1024 ^ unit / 100 / 2 + if 2 ^ 53 < n then 1024 else 0) ∧
    ∀ m n, m ≤ n → ∃ less more, shownHundredths? (format m) = some less ∧
      shownHundredths? (format n) = some more ∧ less ≤ more := by
  refine ⟨fun n hn h64 => ?_, fun m n h => ?_⟩
  · exact ⟨_, _, shown_format hn, (unitOf_largest hn).of_double, hundredths_accurate h64⟩
  · obtain rfl | hm := Nat.eq_zero_or_pos m
    · obtain rfl | hn := Nat.eq_zero_or_pos n
      · exact ⟨0, 0, shownHundredths_zero, shownHundredths_zero, Nat.le_refl 0⟩
      · exact ⟨0, _, shownHundredths_zero, shownHundredths_format hn, Nat.zero_le _⟩
    · have hn : 1 ≤ n := Nat.le_trans hm h
      exact ⟨_, _, shownHundredths_format hm, shownHundredths_format hn,
        shown_mono (unitOf_largest hm) (unitOf_largest hn) (Rounding.double_mono h)⟩

/-- The largest number of 64 bits is rounded up twice, and a byte less than a megabyte is shown as a
thousand and twenty-four of the smaller unit. -/
theorem largest_size_and_next_unit :
    format (2 ^ 64 - 1) = "17179869184.00 GB" ∧
    (∃ number unit, shown? (format (2 ^ 64 - 1)) = some (number, unit) ∧
      LargestUnit (2 ^ 64 - 1) unit ∧
      |(number : ℚ) / 100 * 1024 ^ unit - (2 ^ 64 - 1 : Nat)| ≤
        1024 ^ unit / 100 / 2 + if 2 ^ 53 < 2 ^ 64 - 1 then 1024 else 0) ∧
    format 1048575 = "1024.00 KB" ∧ format 1048576 = "1.00 MB" ∧
    ∃ less more, shownHundredths? (format 1048575) = some less ∧
      shownHundredths? (format 1048576) = some more ∧ less ≤ more :=
  ⟨by decide +kernel, sizes_are_accurate.1 (2 ^ 64 - 1) (by decide) (by decide), by decide +kernel,
    by decide +kernel, sizes_are_accurate.2 1048575 1048576 (by decide)⟩

end SignedConsole.Size
