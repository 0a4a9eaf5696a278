import Mathlib.Algebra.GroupWithZero.Nat
import Mathlib.Data.List.Induction
import Mathlib.Data.List.TakeWhile
import Mailshot.Text.Blank
import Mailshot.Text.Digit

/-!
# Digits read back

A number is written with decimal digits, and they are read as the number.

* `Text.ofDigits_toDigits`: the digits of a number are read as the number;
* `Text.Tight`, `Text.toDigits_ofDigits_iff`: digits are those of the number that they write unless
  they begin with a zero that does not count;
* `Text.ofDigits_lt`: digits write less than the power of ten of their count;
* `Text.takeWhile_digits`, `Text.trimStart_digits`: reading takes the digits and no white space.
-/

namespace Mailshot.Text

variable {ds rest : List Char} {c : Char}

theorem isDigit_of_isDigit (h : c.isDigit = true) : isDigit c = true := by
  simpa [isDigit, Char.isDigit, Char.le_def] using h

theorem isDigit_of_mem_toDigits {n : Nat} (h : c ∈ Nat.toDigits 10 n) : isDigit c = true :=
  isDigit_of_isDigit (Nat.isDigit_of_mem_toDigits (by decide) (by decide) h)

theorem toNat_of_isDigit (h : isDigit c = true) : 48 ≤ c.toNat ∧ c.toNat ≤ 57 := by
  simp only [isDigit, Char.le_def, UInt32.le_iff_toNat_le, Bool.and_eq_true,
    decide_eq_true_eq] at h
  exact h

theorem isBlank_of_isDigit (h : isDigit c = true) : isBlank c = false := by
  have hcode := toNat_of_isDigit h
  simp only [isBlank, Bool.or_eq_false_iff, Bool.and_eq_false_iff, decide_eq_false_iff_not]
  omega

theorem digitValue_le (h : isDigit c = true) : digitValue c ≤ 9 := by
  have hcode := toNat_of_isDigit h
  simp only [digitValue]
  omega

theorem digitChar_digitValue (h : isDigit c = true) : (digitValue c).digitChar = c := by
  have hcode := toNat_of_isDigit h
  have hvalue := digitValue_le h
  rw [← Char.toNat_inj, Nat.toNat_digitChar_of_lt_ten (by omega), digitValue]
  omega

/-- The digits of a number are read as the number. -/
theorem ofDigits_toDigits (n : Nat) : ofDigits (Nat.toDigits 10 n) = n := by
  have hstep : ∀ (ds : List Char) (init : Nat), (∀ c ∈ ds, c.isDigit = true) →
      ds.foldl (fun n c => n * 10 + digitValue c) init = Nat.ofDigitChars 10 ds init := by
    intro ds
    induction ds with
    | nil => intro init _; rfl
    | cons c rest ih =>
        intro init hds
        rw [List.foldl_cons, ih _ fun d hd => hds d (List.mem_cons_of_mem _ hd)]
        simp [Nat.ofDigitChars, digitValue, Nat.mul_comm]
  rw [ofDigits, hstep _ _ fun c hc => Nat.isDigit_of_mem_toDigits (by decide) (by decide) hc]
  exact Nat.ofDigitChars_toDigits (by decide) (by decide)

theorem ofDigits_concat (ds : List Char) (c : Char) :
    ofDigits (ds ++ [c]) = ofDigits ds * 10 + digitValue c := by
  simp [ofDigits]

/-! ### Numbers written back -/

/-- Digits that do not begin with a zero, unless it is all that there is. -/
def Tight (ds : List Char) : Prop := ds.head? = some '0' → ds = ['0']

theorem tight_toDigits (n : Nat) : Tight (Nat.toDigits 10 n) := by
  induction n using Nat.strong_induction_on with
  | _ n ih =>
      intro hzero
      rcases Nat.lt_or_ge n 10 with hsmall | hlarge
      · rw [Nat.toDigits_of_lt_base hsmall] at hzero ⊢
        rw [Option.some.inj hzero]
      · obtain ⟨d, rest, hfirst⟩ :=
          List.exists_cons_of_ne_nil (Nat.toDigits_ne_nil (n := n / 10) (b := 10))
        rw [Nat.toDigits_of_base_le (by decide) hlarge, hfirst] at hzero
        have hquotient := ih (n / 10) (by omega) (by rw [hfirst]; exact hzero)
        have hnone : n / 10 = 0 := by rw [← ofDigits_toDigits (n / 10), hquotient]; rfl
        omega

theorem toDigits_ofDigits (hds : ∀ c ∈ ds, isDigit c = true) (hne : ds ≠ []) (htight : Tight ds) :
    Nat.toDigits 10 (ofDigits ds) = ds := by
  induction ds using List.reverseRecOn with
  | nil => exact absurd rfl hne
  | append_singleton ds c ih =>
      have hc := hds c (by simp)
      have hlast : Nat.toDigits 10 (digitValue c) = [c] := by
        rw [Nat.toDigits_of_lt_base (Nat.lt_succ_of_le (digitValue_le hc)), digitChar_digitValue hc]
      by_cases hfirst : ds = []
      · subst hfirst
        rw [ofDigits_concat]
        exact (congrArg _ (Nat.zero_add _)).trans hlast
      · -- A zero at the front would be all there is, with no room for the last digit.
        have hlead : ds.head? ≠ some '0' := fun hzero => hfirst (by
          have hall := htight (by rw [List.head?_append, hzero, Option.some_or])
          simpa using congrArg List.dropLast hall)
        have hdigits := ih (fun d hd => hds d (List.mem_append_left _ hd)) hfirst
          fun hzero => absurd hzero hlead
        have hpos : 0 < ofDigits ds := Nat.pos_of_ne_zero fun hzero => hlead (by
          rw [← hdigits, hzero]
          rfl)
        rw [ofDigits_concat, Nat.mul_comm, ← Nat.toDigits_append_toDigits (by decide) hpos
          (Nat.lt_succ_of_le (digitValue_le hc)), hdigits, hlast]

/-- **Digits are those of the number that they write** unless they begin with a zero too many. -/
theorem toDigits_ofDigits_iff (hds : ∀ c ∈ ds, isDigit c = true) (hne : ds ≠ []) :
    Nat.toDigits 10 (ofDigits ds) = ds ↔ Tight ds :=
  ⟨fun h => h ▸ tight_toDigits _, toDigits_ofDigits hds hne⟩

/-- Zeros before digits do not count. -/
theorem ofDigits_zeros (k : Nat) (ds : List Char) :
    ofDigits (List.replicate k '0' ++ ds) = ofDigits ds := by
  induction k with
  | zero => rfl
  | succ k ih => exact ih

/-- Digits write less than the power of ten of their count. -/
theorem ofDigits_lt (h : ∀ c ∈ ds, isDigit c = true) : ofDigits ds < 10 ^ ds.length := by
  induction ds using List.reverseRecOn with
  | nil => exact Nat.one_pos
  | append_singleton ds c ih =>
      have hbefore := ih fun d hd => h d (List.mem_append_left _ hd)
      have hlast := digitValue_le (h c (by simp))
      rw [ofDigits_concat, List.length_append, List.length_singleton, Nat.pow_succ]
      omega

/-- Digits are taken up to the first character that is none. -/
theorem takeWhile_digits (hds : ∀ c ∈ ds, isDigit c = true) (hc : isDigit c = false) :
    (ds ++ c :: rest).takeWhile isDigit = ds := by
  rw [List.takeWhile_append_of_pos hds, List.takeWhile_cons_of_neg (by simp [hc]), List.append_nil]

/-- There is no white space before a digit. -/
theorem trimStart_digits (hds : ∀ c ∈ ds, isDigit c = true) (hne : ds ≠ []) :
    trimStart (ds ++ rest) = ds ++ rest := by
  obtain ⟨c, more, rfl⟩ := List.exists_cons_of_ne_nil hne
  have hc := isBlank_of_isDigit (hds c List.mem_cons_self)
  simp [trimStart, hc]

end Mailshot.Text
