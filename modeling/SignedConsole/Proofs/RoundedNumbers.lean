import Mathlib.Algebra.Group.Nat.Defs
import SignedConsole.Rounding

namespace SignedConsole.Rounding

variable {m n den bound : Nat}

/-- A rounded quotient is off by half of the divisor at most. -/
theorem quotient_near (n : Nat) (h : 0 < den) :
    2 * (quotient n den * den) ≤ 2 * n + den ∧ 2 * n ≤ 2 * (quotient n den * den) + den := by
  have hcut := Nat.div_add_mod' n den
  have hrest := Nat.mod_lt n h
  have hnext : (n / den + 1) * den = n / den * den + den := Nat.succ_mul _ _
  unfold quotient
  dsimp only
  split
  · omega
  split
  · omega
  split <;> omega

theorem quotient_mono (h : 0 < den) (hmn : m ≤ n) : quotient m den ≤ quotient n den := by
  have hm := (quotient_near m h).1
  have hn := (quotient_near n h).2
  refine Nat.le_of_not_lt fun hlt => ?_
  have hstep := Nat.mul_le_mul_right den (Nat.succ_le_of_lt hlt)
  rw [Nat.succ_mul] at hstep
  -- Only two equal numbers could be that far from their quotients.
  obtain rfl : m = n := by omega
  exact Nat.lt_irrefl _ hlt

theorem quotient_exact (k : Nat) (h : 0 < den) : quotient (k * den) den = k := by
  obtain ⟨hupper, hlower⟩ := quotient_near (k * den) h
  refine Nat.le_antisymm (Nat.le_of_not_lt fun hlt => ?_) (Nat.le_of_not_lt fun hlt => ?_)
  all_goals
    have hstep := Nat.mul_le_mul_right den (Nat.succ_le_of_lt hlt)
    rw [Nat.succ_mul] at hstep
    omega

theorem quotient_mul_of_dvd (h : 0 < den) (hd : den ∣ n) : quotient n den * den = n := by
  obtain ⟨k, rfl⟩ := hd
  rw [Nat.mul_comm den k, quotient_exact k h]

/-- What is rounded stays on its side of every multiple of the divisor. -/
theorem quotient_mul_le (h : 0 < den) (hd : den ∣ bound) (hn : n ≤ bound) :
    quotient n den * den ≤ bound := by
  rw [← quotient_mul_of_dvd h hd]
  exact Nat.mul_le_mul_right den (quotient_mono h hn)

theorem le_quotient_mul (h : 0 < den) (hd : den ∣ bound) (hn : bound ≤ n) :
    bound ≤ quotient n den * den := by
  rw [← quotient_mul_of_dvd h hd]
  exact Nat.mul_le_mul_right den (quotient_mono h hn)

/-- The distance between doubles around a number that is not smaller. -/
def spacing (n : Nat) : Nat := 2 ^ (n.log2 + 1 - 53)

theorem double_eq (n : Nat) : double n = quotient n (spacing n) * spacing n := rfl

theorem spacing_pos (n : Nat) : 0 < spacing n := Nat.two_pow_pos _

theorem spacing_dvd_pow {e : Nat} (h : n.log2 ≤ e) : spacing n ∣ 2 ^ e :=
  Nat.pow_dvd_pow 2 (by omega)

theorem log2_lt_of_lt {e : Nat} (h : n < 2 ^ e) (he : 0 < e) : n.log2 < e := by
  obtain rfl | hn := Nat.eq_zero_or_pos n
  · exact he
  · exact (Nat.log2_lt (Nat.ne_of_gt hn)).mpr h

theorem spacing_le (h : n < 2 ^ 64) : spacing n ≤ 2048 := by
  have hlog : n.log2 < 64 := log2_lt_of_lt h (by decide)
  exact Nat.pow_le_pow_right (n := 2) (by decide) (by omega : n.log2 + 1 - 53 ≤ 11)

theorem double_near (n : Nat) :
    2 * double n ≤ 2 * n + spacing n ∧ 2 * n ≤ 2 * double n + spacing n :=
  quotient_near n (spacing_pos n)

/-- Up to 53 binary digits all numbers are doubles. -/
theorem double_exact (h : n ≤ 2 ^ 53) : double n = n := by
  rw [double_eq, quotient_mul_of_dvd (spacing_pos n)]
  obtain rfl | hlt := Nat.eq_or_lt_of_le h
  · exact spacing_dvd_pow (n := 2 ^ 53) (e := 53) (by decide)
  · have hlog : n.log2 < 53 := log2_lt_of_lt hlt (by decide)
    have hone : spacing n = 1 := by
      rw [spacing, Nat.sub_eq_zero_of_le hlog, Nat.pow_zero]
    rw [hone]
    exact Nat.one_dvd n

theorem pow_le_double {e : Nat} (h : 2 ^ e ≤ n) : 2 ^ e ≤ double n := by
  have h0 : n ≠ 0 := Nat.ne_of_gt (Nat.lt_of_lt_of_le (Nat.two_pow_pos e) h)
  calc 2 ^ e ≤ 2 ^ n.log2 := Nat.pow_le_pow_right (by decide) ((Nat.le_log2 h0).mpr h)
    _ ≤ double n :=
      le_quotient_mul (spacing_pos n) (spacing_dvd_pow (Nat.le_refl _)) (Nat.log2_self_le h0)

theorem double_le_pow (n : Nat) : double n ≤ 2 ^ (n.log2 + 1) :=
  quotient_mul_le (spacing_pos n) (spacing_dvd_pow (Nat.le_succ _))
    (Nat.le_of_lt Nat.lt_log2_self)

theorem double_mono (h : m ≤ n) : double m ≤ double n := by
  by_cases h0 : m = 0
  · rw [h0]
    exact Nat.zero_le _
  have hn0 : n ≠ 0 := by omega
  have hlog : m.log2 ≤ n.log2 := (Nat.le_log2 hn0).mpr (Nat.le_trans (Nat.log2_self_le h0) h)
  obtain heq | hlt := Nat.eq_or_lt_of_le hlog
  · have hspacing : spacing m = spacing n := by rw [spacing, heq, spacing]
    rw [double_eq, double_eq, hspacing]
    exact Nat.mul_le_mul_right _ (quotient_mono (spacing_pos n) h)
  · -- A power of two lies between the two numbers, and is a double.
    calc double m ≤ 2 ^ (m.log2 + 1) := double_le_pow m
      _ ≤ double n := pow_le_double ((Nat.le_log2 hn0).mp hlt)

end SignedConsole.Rounding
