import Mailshot.Number.Binary64
import Mailshot.Proofs.Number.Rounding

/-!
# The nearest number

What one rounding gives can be told without the way there: of all numbers of the format it is the one
nearest to the exact result, and if two are equally near, the one whose last bit is zero.  That leaves
one number and no other, so arithmetic that rounds after every operation has one result.

* `Magnitude.IsNumber`: the numbers of the format, without a limit to their size;
* `Magnitude.Rounds`: the number nearest to a rational number;
* `Magnitude.ofRatio_rounds`: rounding a quotient gives the number nearest to it;
* `Magnitude.Rounds.value_eq`: there is one such number;
* `Magnitude.Rounds.exponent_le`: it is no greater than the format allows.
-/

namespace Mailshot.Number

/-- Any other natural number is at least as far away as the nearest one is from the one after it. -/
theorem far_of_ne_nearest {num den k : Nat} (hk : k ≠ nearest num den) :
    1 - |(nearest num den : ℚ) - num / den| ≤ |(k : ℚ) - num / den| := by
  have hone : (1 : ℚ) ≤ |(k : ℚ) - nearest num den| := by
    have hint : (1 : ℤ) ≤ |(k : ℤ) - nearest num den| := by
      refine Int.one_le_abs ?_
      omega
    exact_mod_cast hint
  have htriangle := abs_sub_le (k : ℚ) (num / den) (nearest num den)
  rw [abs_sub_comm ((num : ℚ) / den)] at htriangle
  linarith

/-- No natural number is nearer. -/
theorem nearest_le {num den : Nat} (hden : 0 < den) (k : Nat) :
    |(nearest num den : ℚ) - num / den| ≤ |(k : ℚ) - num / den| := by
  by_cases hk : k = nearest num den
  · rw [hk]
  · have hfar := far_of_ne_nearest hk
    have herror : |(nearest num den : ℚ) - num / den| ≤ 1 / 2 := nearest_error hden
    linarith

/-- Halfway between two natural numbers, the even one is taken. -/
theorem nearest_even {num den k : Nat} (hden : 0 < den) (hk : k ≠ nearest num den)
    (hnear : |(k : ℚ) - num / den| ≤ |(nearest num den : ℚ) - num / den|) :
    nearest num den % 2 = 0 := by
  have hhalf : |(nearest num den : ℚ) - num / den| = 1 / 2 := by
    have hfar := far_of_ne_nearest hk
    have herror : |(nearest num den : ℚ) - num / den| ≤ 1 / 2 := nearest_error hden
    linarith
  have hdenq : (den : ℚ) ≠ 0 := by exact_mod_cast hden.ne'
  have hone : ((num % den : Nat) : ℚ) / den < 1 := rest_lt_one hden
  -- what is left over is a half on either side, so only the whole part decides
  unfold nearest at hhalf ⊢
  by_cases hdown : 2 * (num % den) < den ∨ (2 * (num % den) = den ∧ num / den % 2 = 0)
  · rw [if_pos hdown, ratio_eq hden, sub_add_cancel_left, abs_neg, abs_of_nonneg (by positivity),
      div_eq_div_iff hdenq two_ne_zero] at hhalf
    have hrest : num % den * 2 = 1 * den := by exact_mod_cast hhalf
    rw [if_pos hdown]
    omega
  · have hgap : 1 - ((num % den : Nat) : ℚ) / den = 1 / 2 := by
      rwa [if_neg hdown, ratio_eq hden, Nat.cast_add, Nat.cast_one, add_sub_add_left_eq_sub,
        abs_of_pos (by linarith)] at hhalf
    have hrest : num % den * 2 = 1 * den := by
      have hquot : ((num % den : Nat) : ℚ) / den = 1 / 2 := by linarith
      rw [div_eq_div_iff hdenq two_ne_zero] at hquot
      exact_mod_cast hquot
    rw [if_neg hdown]
    omega

namespace Magnitude

/-- **The numbers of the format**, zero or 53 bits of which the first is set, unless the exponent is
the least there is. -/
def IsNumber (m : Magnitude) : Prop :=
  m = zero ∨ m.mantissa < 2 ^ precision ∧ leastExponent ≤ m.exponent ∧
    (2 ^ (precision - 1) ≤ m.mantissa ∨ m.exponent = leastExponent)

/-- **The number nearest to a rational number**; of two equally near ones, the one with an even
mantissa. -/
structure Rounds (m : Magnitude) (x : ℚ) : Prop where
  number : m.IsNumber
  nearest {k : Magnitude} : k.IsNumber → |m.value - x| ≤ |k.value - x|
  even {k : Magnitude} : k.IsNumber → |k.value - x| = |m.value - x| → k.value ≠ m.value →
    m.mantissa % 2 = 0

theorem value_zero : zero.value = 0 := by
  simp [value, zero]

theorem value_nonneg (m : Magnitude) : 0 ≤ m.value := by
  unfold value
  positivity

/-- A distance, counted in steps. -/
theorem abs_steps (k x : ℚ) (step : ℤ) : |k * 2 ^ step - x| = |k - x / 2 ^ step| * 2 ^ step := by
  have hstep : (0 : ℚ) < 2 ^ step := by positivity
  rw [← abs_of_pos hstep, ← abs_mul, abs_of_pos hstep, sub_mul, div_mul_cancel₀ _ hstep.ne']

/-! ### Rounding gives the nearest number -/

/-- No multiple of the step is nearer to a quotient than the one taken. -/
theorem multipleOf_le (num : Nat) {den : Nat} (hden : 0 < den) (step : ℤ) (k : Nat) :
    |(multipleOf num den step : ℚ) * 2 ^ step - num / den| ≤ |(k : ℚ) * 2 ^ step - num / den| := by
  have hstep : (0 : ℚ) < 2 ^ step := by positivity
  rw [abs_steps, abs_steps]
  refine mul_le_mul_of_nonneg_right ?_ hstep.le
  rw [← scaled_ratio]
  exact nearest_le (scaled_den_pos hden step) k

/-- Halfway between two multiples of the step, the even one is taken. -/
theorem multipleOf_even {num den k : Nat} (hden : 0 < den) {step : ℤ}
    (hk : k ≠ multipleOf num den step)
    (hnear : |(k : ℚ) * 2 ^ step - num / den| ≤
      |(multipleOf num den step : ℚ) * 2 ^ step - num / den|) :
    multipleOf num den step % 2 = 0 := by
  have hstep : (0 : ℚ) < 2 ^ step := by positivity
  rw [abs_steps, abs_steps, mul_le_mul_iff_of_pos_right hstep, ← scaled_ratio] at hnear
  exact nearest_even (scaled_den_pos hden step) hk hnear

/-- A number of the format is a multiple of a step, an even one if its last bit is clear, or it has
smaller steps and lies below the numbers that have 53 bits in steps of this size. -/
theorem IsNumber.steps {m : Magnitude} (h : m.IsNumber) (step : ℤ) :
    (∃ k : ℕ, m.value = k * 2 ^ step ∧ (m.mantissa % 2 = 0 → k % 2 = 0)) ∨
      leastExponent < step ∧ m.value < 2 ^ 52 * 2 ^ step := by
  rcases h with rfl | ⟨hbits, hleast, -⟩
  · exact .inl ⟨0, by simp [value_zero], fun _ => rfl⟩
  · rcases le_or_gt step m.exponent with hcoarse | hfine
    · refine .inl ⟨m.mantissa * 2 ^ (m.exponent - step).toNat, ?_, fun heven => ?_⟩
      · have hgap : ((m.exponent - step).toNat : ℤ) = m.exponent - step := by omega
        rw [value, Nat.cast_mul, Nat.cast_pow, Nat.cast_ofNat, ← zpow_natCast, hgap, mul_assoc,
          ← zpow_add₀ two_ne_zero, sub_add_cancel]
      · rw [Nat.mul_mod, heven, Nat.zero_mul, Nat.zero_mod]
    · refine .inr ⟨by omega, ?_⟩
      have hmantissa : (m.mantissa : ℚ) < 2 ^ 53 := by exact_mod_cast hbits
      calc m.value < 2 ^ 53 * 2 ^ m.exponent := by
            rw [value]
            gcongr
        _ ≤ 2 ^ 53 * 2 ^ (step - 1) := by
            gcongr
            · exact one_le_two
            · omega
        _ = 2 ^ 52 * 2 ^ step := by
            rw [zpow_sub_one₀ two_ne_zero]
            ring

section

variable {num den : Nat} (hnum : 0 < num) (hden : 0 < den)

include hnum hden

/-- A quotient has fewer than `2 ^ 53` steps. -/
theorem ratio_lt_steps : (num : ℚ) / den < 2 ^ 53 * 2 ^ stepOf num den := by
  obtain ⟨-, hhigh⟩ := binaryOrder_spec hnum hden
  calc (num : ℚ) / den < 2 ^ (binaryOrder num den + 1) := hhigh
    _ ≤ 2 ^ (53 + stepOf num den) := by
        refine zpow_le_zpow_right₀ one_le_two ?_
        simp only [stepOf, precision]
        omega
    _ = 2 ^ 53 * 2 ^ stepOf num den := by
        rw [zpow_add₀ two_ne_zero]
        norm_num

/-- Unless the steps are the finest there are, a quotient has at least `2 ^ 52` of them. -/
theorem steps_le_ratio (hstep : leastExponent < stepOf num den) :
    2 ^ 52 * 2 ^ stepOf num den ≤ (num : ℚ) / den := by
  obtain ⟨hlow, -⟩ := binaryOrder_spec hnum hden
  have horder : binaryOrder num den = 52 + stepOf num den := by
    simp only [stepOf, precision] at hstep ⊢
    omega
  rw [horder, zpow_add₀ two_ne_zero] at hlow
  exact_mod_cast hlow

/-- The multiple taken has 53 bits, or is the least number with 54. -/
theorem multipleOf_le_bits : multipleOf num den (stepOf num den) ≤ 2 ^ 53 := by
  have hstep : (0 : ℚ) < 2 ^ stepOf num den := by positivity
  have hratio := ratio_lt_steps hnum hden
  have hnear := multipleOf_le num hden (stepOf num den) (2 ^ 53)
  by_contra hlarge
  have hmore : (2 : ℚ) ^ 53 < multipleOf num den (stepOf num den) := by
    exact_mod_cast Nat.lt_of_not_le hlarge
  have hsteps : (2 : ℚ) ^ 53 * 2 ^ stepOf num den <
      multipleOf num den (stepOf num den) * 2 ^ stepOf num den := by gcongr
  rw [Nat.cast_pow, Nat.cast_ofNat, abs_of_pos (by linarith), abs_of_pos (by linarith)] at hnear
  linarith

/-- Unless the steps are the finest there are, its first bit is set. -/
theorem bits_le_multipleOf (hstep : leastExponent < stepOf num den) :
    2 ^ 52 ≤ multipleOf num den (stepOf num den) := by
  have hpos : (0 : ℚ) < 2 ^ stepOf num den := by positivity
  have hratio := steps_le_ratio hnum hden hstep
  have hnear := multipleOf_le num hden (stepOf num den) (2 ^ 52)
  by_contra hsmall
  have hless : (multipleOf num den (stepOf num den) : ℚ) < 2 ^ 52 := by
    exact_mod_cast Nat.lt_of_not_le hsmall
  have hsteps : (multipleOf num den (stepOf num den) : ℚ) * 2 ^ stepOf num den <
      2 ^ 52 * 2 ^ stepOf num den := by gcongr
  rw [Nat.cast_pow, Nat.cast_ofNat, abs_of_neg (by linarith), abs_of_nonpos (by linarith)] at hnear
  linarith

/-- What rounding gives is a number of the format, also after a carry. -/
theorem isNumber_ofRatio : (ofRatio num den).IsNumber := by
  have hbits := multipleOf_le_bits hnum hden
  have hleast : leastExponent ≤ stepOf num den := le_max_right _ _
  rw [ofRatio, if_neg hnum.ne']
  by_cases hcarry : multipleOf num den (stepOf num den) = Nat.pow 2 precision
  · have hgreater : leastExponent ≤ stepOf num den + 1 := by omega
    simp only [if_pos hcarry]
    exact .inr ⟨Nat.pow_lt_pow_right one_lt_two (by decide), hgreater, .inl le_rfl⟩
  · simp only [if_neg hcarry]
    refine .inr ⟨lt_of_le_of_ne hbits hcarry, hleast, ?_⟩
    rcases hleast.lt_or_eq with hmore | hsame
    · exact .inl (bits_le_multipleOf hnum hden hmore)
    · exact .inr hsame.symm

omit hden in
/-- A carry clears the last bit. -/
theorem ofRatio_even (heven : multipleOf num den (stepOf num den) % 2 = 0) :
    (ofRatio num den).mantissa % 2 = 0 := by
  rw [ofRatio, if_neg hnum.ne']
  by_cases hcarry : multipleOf num den (stepOf num den) = Nat.pow 2 precision
  · simp only [if_pos hcarry]
    decide
  · simpa only [if_neg hcarry] using heven

/-- A number with smaller steps than a quotient is farther away than the multiple taken. -/
theorem far_of_below {k : ℚ} (hstep : leastExponent < stepOf num den)
    (hbelow : k < 2 ^ 52 * 2 ^ stepOf num den) :
    |(multipleOf num den (stepOf num den) : ℚ) * 2 ^ stepOf num den - num / den| <
      |k - num / den| := by
  have hratio := steps_le_ratio hnum hden hstep
  have hnear := multipleOf_le num hden (stepOf num den) (2 ^ 52)
  rw [Nat.cast_pow, Nat.cast_ofNat, abs_of_nonpos (sub_nonpos.mpr hratio)] at hnear
  rw [abs_of_neg (sub_neg.mpr (hbelow.trans_le hratio))]
  linarith

end

/-- **Rounding a quotient gives the number nearest to it.** -/
theorem ofRatio_rounds (num : Nat) {den : Nat} (hden : 0 < den) :
    (ofRatio num den).Rounds (num / den) := by
  rcases Nat.eq_zero_or_pos num with rfl | hnum
  · have hzero : (ofRatio 0 den) = zero := by rw [ofRatio, if_pos rfl]
    rw [hzero, Nat.cast_zero, zero_div]
    refine ⟨.inl rfl, ?_, fun _ _ _ => rfl⟩
    intro k _
    simp [value_zero]
  · refine ⟨isNumber_ofRatio hnum hden, ?_, ?_⟩
    · intro k hk
      rw [value_ofRatio hnum]
      rcases hk.steps (stepOf num den) with ⟨j, hj, -⟩ | ⟨hstep, hbelow⟩
      · rw [hj]
        exact multipleOf_le num hden _ j
      · exact (far_of_below hnum hden hstep hbelow).le
    · intro k hk hsame hne
      rw [value_ofRatio hnum] at hsame hne
      rcases hk.steps (stepOf num den) with ⟨j, hj, -⟩ | ⟨hstep, hbelow⟩
      · rw [hj] at hsame hne
        refine ofRatio_even hnum (multipleOf_even hden ?_ hsame.le)
        rintro rfl
        exact hne rfl
      · exact absurd hsame (far_of_below hnum hden hstep hbelow).ne'

/-- A natural number is rounded to the number nearest to it. -/
theorem ofNat_rounds (n : Nat) : (ofNat n).Rounds n := by
  have hrounds := ofRatio_rounds n one_pos
  rwa [Nat.cast_one, div_one] at hrounds

/-- A product is rounded to the number nearest to it. -/
theorem mul_rounds (a b : Magnitude) : (a.mul b).Rounds (a.value * b.value) := by
  rw [← value_mul_value]
  exact ofRatio_rounds _ (Nat.mul_pos a.den_pos b.den_pos)

/-- A quotient is rounded to the number nearest to it. -/
theorem div_rounds (a : Magnitude) {b : Magnitude} (hb : 0 < b.num) :
    (a.div b).Rounds (a.value / b.value) := by
  rw [← value_div_value]
  exact ofRatio_rounds _ (Nat.mul_pos a.den_pos hb)

/-! ### There is one nearest number -/

/-- Zero can be told like the other numbers, with no bit and the finest steps. -/
theorem IsNumber.exists_bits {m : Magnitude} (h : m.IsNumber) :
    ∃ (bits : ℕ) (step : ℤ), m.value = bits * 2 ^ step ∧ bits < 2 ^ 53 ∧ leastExponent ≤ step ∧
      (2 ^ 52 ≤ bits ∨ step = leastExponent) ∧ bits % 2 = m.mantissa % 2 := by
  rcases h with rfl | ⟨hbits, hleast, hfirst⟩
  · exact ⟨0, leastExponent, by simp [value_zero], by decide, le_rfl, .inr rfl, rfl⟩
  · exact ⟨m.mantissa, m.exponent, rfl, hbits, hleast, hfirst, rfl⟩

/-- **Two numbers with even mantissas are no neighbours**: that with the last bit set comes between. -/
theorem IsNumber.exists_between {m k : Magnitude} (hm : m.IsNumber) (hk : k.IsNumber)
    (hmeven : m.mantissa % 2 = 0) (hkeven : k.mantissa % 2 = 0) (hless : m.value < k.value) :
    ∃ j : Magnitude, j.IsNumber ∧ m.value < j.value ∧ j.value < k.value := by
  obtain ⟨bits, step, hvalue, hbits, hleast, hfirst, hparity⟩ := hm.exists_bits
  have hstep : (0 : ℚ) < 2 ^ step := by positivity
  have hnext : (⟨bits + 1, step⟩ : Magnitude).IsNumber := by
    refine .inr ⟨?_, hleast, hfirst.imp_left fun h => ?_⟩
    · simp only [precision]
      omega
    · simp only [precision]
      omega
  refine ⟨_, hnext, ?_, ?_⟩
  · rw [hvalue, value, Nat.cast_succ]
    linarith
  · rw [hvalue] at hless
    -- `k` has steps of the same size at least, and an even number of them
    rcases hk.steps step with ⟨j, hj, heven⟩ | ⟨hmore, hbelow⟩
    · rw [hj, mul_lt_mul_iff_of_pos_right hstep, Nat.cast_lt] at hless
      have hbeyond : bits + 1 < j := by
        have := heven hkeven
        omega
      rw [hj, value, mul_lt_mul_iff_of_pos_right hstep, Nat.cast_lt]
      exact hbeyond
    · have hset : 2 ^ 52 ≤ bits := hfirst.resolve_right hmore.ne'
      have hbitsq : (2 : ℚ) ^ 52 ≤ bits := by exact_mod_cast hset
      have := mul_le_mul_of_nonneg_right hbitsq hstep.le
      linarith

/-- **There is one nearest number.** -/
theorem Rounds.value_eq {m k : Magnitude} {x : ℚ} (hm : m.Rounds x) (hk : k.Rounds x) :
    m.value = k.value := by
  -- of two different ones the lesser and the greater would both have an even mantissa
  have hnotless : ∀ {a b : Magnitude}, a.Rounds x → b.Rounds x → ¬ a.value < b.value := by
    intro a b ha hb hless
    have hsame : |a.value - x| = |b.value - x| :=
      le_antisymm (ha.nearest hb.number) (hb.nearest ha.number)
    obtain ⟨j, hj, hlow, hhigh⟩ := ha.number.exists_between hb.number
      (ha.even hb.number hsame.symm hless.ne') (hb.even ha.number hsame hless.ne) hless
    rcases le_total x j.value with hx | hx
    · have hnear := hb.nearest hj
      rw [abs_of_nonneg (by linarith), abs_of_nonneg (by linarith)] at hnear
      linarith
    · have hnear := ha.nearest hj
      rw [abs_of_nonpos (by linarith), abs_of_nonpos (by linarith)] at hnear
      linarith
  exact le_antisymm (not_lt.mp (hnotless hk hm)) (not_lt.mp (hnotless hm hk))

/-! ### The size of the nearest number -/

/-- The nearest number is not below zero, so it is at most twice what is rounded. -/
theorem Rounds.value_le {m : Magnitude} {x : ℚ} (h : m.Rounds x) (hx : 0 ≤ x) :
    m.value ≤ 2 * x := by
  have hzero := h.nearest (.inl rfl : zero.IsNumber)
  rw [value_zero, zero_sub, abs_neg, abs_of_nonneg hx] at hzero
  have := le_abs_self (m.value - x)
  linarith

/-- **The nearest number is no greater than the format allows**, unless what is rounded takes up its
whole range. -/
theorem Rounds.exponent_le {m : Magnitude} {x : ℚ} (h : m.Rounds x) (hx : 0 ≤ x)
    (hless : x < 2 ^ (1023 : ℤ)) : m.exponent ≤ Binary64.greatestExponent := by
  rcases h.number with rfl | ⟨-, -, hfirst⟩
  · decide
  by_contra hlarge
  simp only [Binary64.greatestExponent, not_le] at hlarge
  have hbits : (2 : ℚ) ^ (52 : ℤ) ≤ m.mantissa := by
    rcases hfirst with hset | hleast
    · exact_mod_cast hset
    · rw [hleast] at hlarge
      exact absurd hlarge (by decide)
  have hgreat : (2 : ℚ) * 2 ^ (1023 : ℤ) ≤ m.value := by
    calc (2 : ℚ) * 2 ^ (1023 : ℤ) = 2 ^ (52 + 972 : ℤ) := by
          rw [← zpow_one_add₀ two_ne_zero]
          norm_num
      _ ≤ 2 ^ (52 + m.exponent : ℤ) := zpow_le_zpow_right₀ one_le_two (by omega)
      _ ≤ m.value := by
          rw [zpow_add₀ two_ne_zero, value]
          gcongr
  have := h.value_le hx
  linarith

end Magnitude

end Mailshot.Number
