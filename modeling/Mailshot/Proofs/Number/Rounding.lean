import Mathlib.Algebra.Order.Field.Power
import Mathlib.Algebra.Order.Floor.Semiring
import Mathlib.Data.Rat.Floor
import Mathlib.Data.Nat.Log
import Mathlib.Tactic.Linarith
import Mathlib.Tactic.FieldSimp
import Mathlib.Tactic.Ring
import Mathlib.Tactic.Positivity
import Mailshot.Number.Rounding

/-!
# The error of one rounding

Magnitudes stand for rational numbers.  Rounding a quotient moves it by half a step at most, where
the step is that of the last place kept, and not at all where the quotient is a multiple of the
step.

* `Magnitude.value`: the rational number that a magnitude stands for;
* `Magnitude.ofRatio_error`: one rounding errs by half a step at most;
* `Magnitude.ofRatio_exact`: multiples of the step are kept;
* `Magnitude.ceil_eq`: the ceiling is that of the value.
-/

namespace Mailshot.Number

/-- A quotient is its whole part and what is left over. -/
theorem ratio_eq {num den : Nat} (hden : 0 < den) :
    (num : ℚ) / den = (num / den : Nat) + ((num % den : Nat) : ℚ) / den := by
  have hdenq : (den : ℚ) ≠ 0 := by exact_mod_cast hden.ne'
  have hsplit : (num : ℚ) = den * (num / den : Nat) + (num % den : Nat) := by
    exact_mod_cast (Nat.div_add_mod num den).symm
  rw [div_eq_iff hdenq, hsplit]
  field_simp

/-- What is left over is less than a whole. -/
theorem rest_lt_one {num den : Nat} (hden : 0 < den) : ((num % den : Nat) : ℚ) / den < 1 := by
  have hdenq : (0 : ℚ) < den := by exact_mod_cast hden
  rw [div_lt_one hdenq]
  exact_mod_cast Nat.mod_lt num hden

/-- A quotient rounded up, in natural numbers. -/
theorem ceil_ratio (num : Nat) {den : Nat} (hden : 0 < den) :
    (num + (den - 1)) / den = ⌈(num : ℚ) / den⌉₊ := by
  have hdenq : (0 : ℚ) < den := by exact_mod_cast hden
  refine eq_of_forall_ge_iff fun k => ?_
  rw [Nat.ceil_le, div_le_iff₀ hdenq, Nat.div_le_iff_le_mul_add_pred hden]
  have hcast : (num : ℚ) ≤ k * den ↔ num ≤ den * k := by
    rw [mul_comm den]
    exact_mod_cast Iff.rfl
  rw [hcast]
  omega

/-- The nearest natural number is at most a half away. -/
theorem nearest_error {num den : Nat} (hden : 0 < den) :
    |(nearest num den : ℚ) - num / den| ≤ 1 / 2 := by
  have hdenq : (0 : ℚ) < den := by exact_mod_cast hden
  unfold nearest
  by_cases hdown : 2 * (num % den) < den ∨ (2 * (num % den) = den ∧ num / den % 2 = 0)
  · have hhalf : 2 * ((num % den : Nat) : ℚ) ≤ den := by
      have : 2 * (num % den) ≤ den := by omega
      exact_mod_cast this
    have hrest : ((num % den : Nat) : ℚ) / den ≤ 1 / 2 := by
      rw [div_le_div_iff₀ hdenq two_pos]
      linarith
    have hpos : (0 : ℚ) ≤ ((num % den : Nat) : ℚ) / den := by positivity
    rw [if_pos hdown, ratio_eq hden, abs_le]
    constructor <;> linarith
  · have hhalf : (den : ℚ) ≤ 2 * ((num % den : Nat) : ℚ) := by
      have : den ≤ 2 * (num % den) := by omega
      exact_mod_cast this
    have hrest : 1 / 2 ≤ ((num % den : Nat) : ℚ) / den := by
      rw [div_le_div_iff₀ two_pos hdenq]
      linarith
    have hone : ((num % den : Nat) : ℚ) / den < 1 := rest_lt_one hden
    rw [if_neg hdown, ratio_eq hden, abs_le, Nat.cast_add, Nat.cast_one]
    constructor <;> linarith

/-- A power of two with an integral exponent, as a fraction. -/
theorem two_zpow (e : ℤ) : (2 : ℚ) ^ e = 2 ^ e.toNat / 2 ^ (-e).toNat := by
  rcases le_total 0 e with he | he
  · obtain ⟨n, rfl⟩ := Int.eq_ofNat_of_zero_le he
    simp
  · obtain ⟨n, hn⟩ := Int.eq_ofNat_of_zero_le (neg_nonneg.mpr he)
    obtain rfl : e = -n := by omega
    simp

/-- The order of a positive natural number. -/
theorem log2_spec {n : Nat} (hn : 0 < n) :
    (2 : ℚ) ^ (n.log2 : ℤ) ≤ n ∧ (n : ℚ) < 2 ^ ((n.log2 : ℤ) + 1) := by
  have hlow : 2 ^ n.log2 ≤ n := Nat.log2_self_le hn.ne'
  have hhigh : n < 2 ^ (n.log2 + 1) := Nat.lt_log2_self
  constructor
  · rw [zpow_natCast]
    exact_mod_cast hlow
  · rw [← Nat.cast_succ, zpow_natCast]
    exact_mod_cast hhigh

/-- The order of a positive quotient. -/
theorem binaryOrder_spec {num den : Nat} (hnum : 0 < num) (hden : 0 < den) :
    (2 : ℚ) ^ binaryOrder num den ≤ num / den ∧
      (num : ℚ) / den < 2 ^ (binaryOrder num den + 1) := by
  have hdenq : (0 : ℚ) < den := by exact_mod_cast hden
  obtain ⟨hnumlow, hnumhigh⟩ := log2_spec hnum
  obtain ⟨hdenlow, hdenhigh⟩ := log2_spec hden
  have hbelow : (2 : ℚ) ^ ((num.log2 : ℤ) - den.log2 - 1) ≤ num / den := by
    rw [le_div_iff₀ hdenq]
    calc (2 : ℚ) ^ ((num.log2 : ℤ) - den.log2 - 1) * den
        ≤ 2 ^ ((num.log2 : ℤ) - den.log2 - 1) * 2 ^ ((den.log2 : ℤ) + 1) := by gcongr
      _ = 2 ^ (num.log2 : ℤ) := by rw [← zpow_add₀ two_ne_zero]; congr 1; ring
      _ ≤ num := hnumlow
  have habove : (num : ℚ) / den < 2 ^ ((num.log2 : ℤ) - den.log2 + 1) := by
    rw [div_lt_iff₀ hdenq]
    calc (num : ℚ) < 2 ^ ((num.log2 : ℤ) + 1) := hnumhigh
      _ = 2 ^ ((num.log2 : ℤ) - den.log2 + 1) * 2 ^ (den.log2 : ℤ) := by
          rw [← zpow_add₀ two_ne_zero]; congr 1; ring
      _ ≤ 2 ^ ((num.log2 : ℤ) - den.log2 + 1) * den := by gcongr
  have htest : den * Nat.pow 2 ((num.log2 : ℤ) - den.log2).toNat ≤
      num * Nat.pow 2 (-((num.log2 : ℤ) - den.log2)).toNat ↔
      (2 : ℚ) ^ ((num.log2 : ℤ) - den.log2) ≤ num / den := by
    rw [two_zpow, div_le_div_iff₀ (by positivity) hdenq, mul_comm (2 ^ _ : ℚ)]
    exact_mod_cast Iff.rfl
  unfold binaryOrder
  by_cases horder : (2 : ℚ) ^ ((num.log2 : ℤ) - den.log2) ≤ num / den
  · rw [if_pos (htest.mpr horder)]
    exact ⟨horder, habove⟩
  · rw [if_neg (htest.not.mpr horder)]
    exact ⟨hbelow, by simpa using not_le.mp horder⟩

namespace Magnitude

/-- The rational number that a magnitude stands for. -/
def value (m : Magnitude) : ℚ := m.mantissa * 2 ^ m.exponent

theorem den_pos (m : Magnitude) : 0 < m.den :=
  Nat.pow_pos two_pos

/-- A magnitude is its numerator over its denominator. -/
theorem value_eq (m : Magnitude) : m.value = m.num / m.den := by
  simp only [value, num, den, two_zpow, Nat.pow_eq]
  push_cast
  ring

/-- The product of two magnitudes, before it is rounded. -/
theorem value_mul_value (a b : Magnitude) :
    ((a.num * b.num : Nat) : ℚ) / (a.den * b.den : Nat) = a.value * b.value := by
  rw [value_eq, value_eq, div_mul_div_comm]
  push_cast
  rfl

/-- The quotient of two magnitudes, before it is rounded. -/
theorem value_div_value (a b : Magnitude) :
    ((a.num * b.den : Nat) : ℚ) / (a.den * b.num : Nat) = a.value / b.value := by
  rw [value_eq, value_eq, div_div_div_eq]
  push_cast
  rfl

/-- A carry into another bit does not change the value. -/
theorem value_ofRatio {num den : Nat} (hnum : 0 < num) :
    (ofRatio num den).value = multipleOf num den (stepOf num den) * 2 ^ stepOf num den := by
  rw [ofRatio, if_neg hnum.ne']
  by_cases hcarry : multipleOf num den (stepOf num den) = Nat.pow 2 precision
  · simp only [hcarry, if_true, value, zpow_add₀ (two_ne_zero (α := ℚ)), precision]
    norm_num
    ring
  · simp only [if_neg hcarry, value]

/-- A quotient, counted in steps. -/
theorem scaled_ratio (num den : Nat) (step : ℤ) :
    ((num * Nat.pow 2 (-step).toNat : Nat) : ℚ) / (den * Nat.pow 2 step.toNat : Nat) =
      num / den / 2 ^ step := by
  rw [two_zpow]
  simp only [Nat.pow_eq]
  push_cast
  field_simp

theorem scaled_den_pos {den : Nat} (hden : 0 < den) (step : ℤ) :
    0 < den * Nat.pow 2 step.toNat :=
  Nat.mul_pos hden (Nat.pow_pos two_pos)

/-- The multiple of a step that is nearest to a quotient is half a step away at most. -/
theorem multipleOf_error {num den : Nat} (hden : 0 < den) (step : ℤ) :
    |(multipleOf num den step : ℚ) * 2 ^ step - num / den| ≤ 2 ^ step / 2 := by
  have hstep : (0 : ℚ) < 2 ^ step := by positivity
  have hnear : |(multipleOf num den step : ℚ) - num / den / 2 ^ step| ≤ 1 / 2 := by
    rw [← scaled_ratio]
    exact nearest_error (scaled_den_pos hden step)
  calc |(multipleOf num den step : ℚ) * 2 ^ step - num / den|
      = |(multipleOf num den step : ℚ) - num / den / 2 ^ step| * 2 ^ step := by
        rw [← abs_of_pos hstep, ← abs_mul, abs_of_pos hstep, sub_mul, div_mul_cancel₀ _ hstep.ne']
    _ ≤ 1 / 2 * 2 ^ step := by gcongr
    _ = 2 ^ step / 2 := by ring

/-- **One rounding errs by half a step at most.** -/
theorem ofRatio_error {num den : Nat} (hnum : 0 < num) (hden : 0 < den) :
    |(ofRatio num den).value - num / den| ≤ 2 ^ stepOf num den / 2 := by
  rw [value_ofRatio hnum]
  exact multipleOf_error hden _

/-- **Multiples of the step are kept.** -/
theorem ofRatio_exact {num den : Nat} (hnum : 0 < num) (hden : 0 < den) {k : ℕ}
    (hk : (num : ℚ) / den = k * 2 ^ stepOf num den) : (ofRatio num den).value = num / den := by
  have hstep : (0 : ℚ) < 2 ^ stepOf num den := by positivity
  have herror := ofRatio_error hnum hden
  rw [value_ofRatio hnum, hk, ← sub_mul, abs_mul, abs_of_pos hstep,
    div_eq_mul_one_div, mul_comm, mul_le_mul_iff_right₀ hstep] at herror
  have hsame : multipleOf num den (stepOf num den) = k := by
    have hint : |((multipleOf num den (stepOf num den) : ℤ) - (k : ℤ))| < 1 := by
      have hlt : |((multipleOf num den (stepOf num den) : ℚ) - k)| < 1 := by linarith
      exact_mod_cast hlt
    have := Int.abs_lt_one_iff.mp hint
    omega
  rw [value_ofRatio hnum, hk, hsame]

/-- Unless the quotient is tiny, 53 places are kept: that of its order and those below. -/
theorem stepOf_eq {num den : Nat} (h : -1022 ≤ binaryOrder num den) :
    stepOf num den = binaryOrder num den - 52 := by
  simp only [stepOf, precision, leastExponent]
  omega

/-- Natural numbers up to `2 ^ 53` are kept. -/
theorem ofRatio_of_le {num den n : Nat} (hden : 0 < den) (hn : (num : ℚ) / den = n)
    (hle : n ≤ 2 ^ precision) : (ofRatio num den).value = n := by
  have hdenq : (0 : ℚ) < den := by exact_mod_cast hden
  rcases Nat.eq_zero_or_pos n with rfl | hpos
  · have hnum : num = 0 := by
      rw [div_eq_iff hdenq.ne'] at hn
      simpa using hn
    simp [hnum, ofRatio, zero, value]
  · have hnum : 0 < num := by
      rw [Nat.pos_iff_ne_zero]
      rintro rfl
      rw [Nat.cast_zero, zero_div] at hn
      exact hpos.ne (by exact_mod_cast hn)
    obtain ⟨hlow, hhigh⟩ := binaryOrder_spec hnum hden
    rw [hn] at hlow hhigh
    have hone : (1 : ℚ) ≤ n := by exact_mod_cast hpos
    have hleq : (n : ℚ) ≤ 2 ^ (53 : ℤ) := by exact_mod_cast hle
    have hleast : 0 < binaryOrder num den + 1 :=
      (one_lt_zpow_iff_right₀ one_lt_two).mp (hone.trans_lt hhigh)
    have hmost : binaryOrder num den ≤ 53 :=
      (zpow_le_zpow_iff_right₀ one_lt_two).mp (hlow.trans hleq)
    have hstep : stepOf num den = binaryOrder num den - 52 := stepOf_eq (by omega)
    rw [← hn]
    rcases hmost.eq_or_lt with horder | hless
    · have hall : (n : ℚ) = 2 ^ (53 : ℤ) := le_antisymm hleq (horder ▸ hlow)
      refine ofRatio_exact hnum hden (k := 2 ^ 52) ?_
      rw [hn, hall, hstep, horder]
      norm_num
    · refine ofRatio_exact hnum hden (k := n * 2 ^ (52 - binaryOrder num den).toNat) ?_
      have hplaces : ((52 - binaryOrder num den).toNat : ℤ) = 52 - binaryOrder num den := by omega
      rw [hn, hstep]
      push_cast
      rw [← zpow_natCast, hplaces, mul_assoc, ← zpow_add₀ two_ne_zero]
      simp

/-- The ceiling of a magnitude is that of its value. -/
theorem ceil_eq (m : Magnitude) : m.ceil = ⌈m.value⌉₊ := by
  rw [value_eq, ceil, ceil_ratio m.num m.den_pos]

end Magnitude

end Mailshot.Number
