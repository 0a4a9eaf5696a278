import Mailshot.Proofs.Number.Nearest
import Mailshot.Proofs.Share

/-!
# Shares in binary64

A share is computed with four roundings: of the number of members, of the ratio, of their product and
of its hundredth.  Each of them gives the nearest number of the format, so the share is settled by
what these numbers are, not by how they are found.  And where the product has 53 bits, nothing is lost
on the way: rounding the last result up gives what rounding the exact hundredth up would give.

* `Share.Computes`: the four numbers;
* `Share.Computes.exponent_le`: they are in the range of the format;
* `Share.count_computed`: the share is the last of them, rounded up.
-/

namespace Mailshot.Share

open Number (Magnitude precision ceil_ratio Binary64.greatestExponent)

/-- **The numbers on the way to a share**: the members and the ratio, their product, and its
hundredth, each rounded to the nearest. -/
structure Computes (n ratio : Nat) (members factor product share : Magnitude) : Prop where
  ofMembers : members.Rounds n
  ofRatio : factor.Rounds ratio
  ofProduct : product.Rounds (members.value * factor.value)
  ofQuotient : share.Rounds (product.value / 100)

/-- These are the numbers that a share is computed with. -/
theorem computes (n ratio : Nat) :
    Computes n ratio (.ofNat n) (.ofNat ratio) ((Magnitude.ofNat n).mul (.ofNat ratio))
      (((Magnitude.ofNat n).mul (.ofNat ratio)).div hundred) where
  ofMembers := Magnitude.ofNat_rounds n
  ofRatio := Magnitude.ofNat_rounds ratio
  ofProduct := Magnitude.mul_rounds _ _
  ofQuotient := by
    rw [← value_hundred]
    exact Magnitude.div_rounds _ num_hundred_pos

section

variable {n ratio : Nat} {members factor product share : Magnitude}
  (h : Computes n ratio members factor product share)

include h

/-- The last number has one value, whichever numbers are on the way. -/
theorem Computes.value_eq :
    share.value = (((Magnitude.ofNat n).mul (.ofNat ratio)).div hundred).value := by
  have hown := computes n ratio
  have hproduct : product.value = ((Magnitude.ofNat n).mul (.ofNat ratio)).value := by
    refine h.ofProduct.value_eq ?_
    rw [h.ofMembers.value_eq hown.ofMembers, h.ofRatio.value_eq hown.ofRatio]
    exact hown.ofProduct
  refine h.ofQuotient.value_eq ?_
  rw [hproduct]
  exact hown.ofQuotient

/-- **No number on the way is too great** for the format, where the members can be counted in 64 bits
and the ratio has 32. -/
theorem Computes.exponent_le (hn : n ≤ limit) (hratio : ratio < 2 ^ 32) :
    ∀ m ∈ [members, factor, product, share], m.exponent ≤ Binary64.greatestExponent := by
  have hnq : (n : ℚ) ≤ 2 ^ 64 := by
    have : n ≤ 2 ^ 64 := hn.trans (by decide)
    exact_mod_cast this
  have hratioq : (ratio : ℚ) ≤ 2 ^ 32 := by exact_mod_cast hratio.le
  have hmembers := h.ofMembers.value_le (Nat.cast_nonneg n)
  have hfactor := h.ofRatio.value_le (Nat.cast_nonneg ratio)
  have hexact : members.value * factor.value ≤ 2 * 2 ^ 64 * (2 * 2 ^ 32) :=
    mul_le_mul (by linarith) (by linarith) factor.value_nonneg (by positivity)
  have hpos : 0 ≤ members.value * factor.value :=
    mul_nonneg members.value_nonneg factor.value_nonneg
  have hproduct := h.ofProduct.value_le hpos
  have hgreat : (2 : ℚ) * (2 * 2 ^ 64 * (2 * 2 ^ 32)) < 2 ^ (1023 : ℤ) := by
    calc (2 : ℚ) * (2 * 2 ^ 64 * (2 * 2 ^ 32)) = 2 ^ (99 : ℤ) := by norm_num
      _ < 2 ^ (1023 : ℤ) := zpow_lt_zpow_right₀ one_lt_two (by decide)
  simp only [List.forall_mem_cons]
  refine ⟨?_, ?_, ?_, ?_, by simp⟩
  · exact h.ofMembers.exponent_le (Nat.cast_nonneg n) (lt_of_le_of_lt (by linarith) hgreat)
  · exact h.ofRatio.exponent_le (Nat.cast_nonneg ratio) (lt_of_le_of_lt (by linarith) hgreat)
  · exact h.ofProduct.exponent_le hpos (lt_of_le_of_lt (by linarith) hgreat)
  · have hshare : 0 ≤ product.value / 100 := div_nonneg product.value_nonneg (by norm_num)
    exact h.ofQuotient.exponent_le hshare (lt_of_le_of_lt (by linarith) hgreat)

end

/-- **A share is computed in binary64**: there are numbers on the way to it, in the range of the
format, and the share is the last of them, rounded up and stopped at the greatest count.  It is the
exact share, rounded up, where the product of the members and the ratio has 53 bits. -/
theorem count_computed (n ratio : Nat) :
    (∃ members factor product share, Computes n ratio members factor product share) ∧
      (∀ members factor product share, Computes n ratio members factor product share →
        count n ratio = min limit ⌈share.value⌉₊ ∧
          (n ≤ limit → ratio < 2 ^ 32 →
            ∀ m ∈ [members, factor, product, share], m.exponent ≤ Binary64.greatestExponent)) ∧
      (n * ratio ≤ 2 ^ 53 → count n ratio = ⌈((n * ratio : ℕ) : ℚ) / 100⌉₊) := by
  refine ⟨⟨_, _, _, _, computes n ratio⟩, ?_, ?_⟩
  · intro members factor product share h
    refine ⟨?_, h.exponent_le⟩
    rw [h.value_eq, ← Magnitude.ceil_eq, count]
  · intro h
    rw [count_exact h]
    exact_mod_cast ceil_ratio (n * ratio) (by decide : 0 < 100)

/-- The exact share, 90071992547409.01, lies just above a whole number, and is rounded up. -/
theorem count_computed_of_crowd :
    9007199254740901 * 1 ≤ 2 ^ 53 ∧ count 9007199254740901 1 = 90071992547410 ∧
      ∃ members factor product share,
        Computes 9007199254740901 1 members factor product share ∧
          min limit ⌈share.value⌉₊ = 90071992547410 := by
  obtain ⟨⟨members, factor, product, share, h⟩, hcount, hexact⟩ := count_computed 9007199254740901 1
  have hproduct : 9007199254740901 * 1 ≤ 2 ^ 53 := by decide
  have hshare : count 9007199254740901 1 = 90071992547410 := by
    rw [hexact hproduct, Nat.ceil_eq_iff (by decide)]
    norm_num
  exact ⟨hproduct, hshare, members, factor, product, share, h,
    (hcount members factor product share h).1.symm.trans hshare⟩

end Mailshot.Share
