import Mailshot.Proofs.Number.Rounding
import Mailshot.Share

/-!
# Shares and buckets

As long as the product of the audience and a ratio has 53 bits, rounding never moves a share across
a whole member, and the share is the exact one, rounded up.  The buckets lie side by side from the
first member on, so together they are the beginning of the audience, and all of it once the shares
cover it.

* `Share.count_exact`: the share of a variant is exact;
* `Share.flatten_partition`: the buckets together are the beginning of the audience;
* `Share.partition_covers`: they are the whole audience where ratios come to a hundred;
* `Share.before`, `Share.partition_layout`: where each bucket starts and ends.
-/

namespace Mailshot.Share

open Number (Magnitude precision binaryOrder binaryOrder_spec)

/-- Rounding keeps a quotient by a hundred between the same natural numbers. -/
theorem ceil_hundredth {num den n : Nat} (hden : 0 < den) (hn : (num : ℚ) / den = n / 100)
    (hle : n ≤ 2 ^ precision) : (Magnitude.ofRatio num den).ceil = (n + 99) / 100 := by
  have hsplit : (n : ℚ) = 100 * (n / 100 : Nat) + (n % 100 : Nat) := by
    exact_mod_cast (Nat.div_add_mod n 100).symm
  have hvalue : (num : ℚ) / den = (n / 100 : Nat) + ((n % 100 : Nat) : ℚ) / 100 := by
    rw [hn, hsplit]
    ring
  rw [Magnitude.ceil_eq]
  by_cases hwhole : n % 100 = 0
  · have hexact : (num : ℚ) / den = (n / 100 : Nat) := by simpa [hwhole] using hvalue
    rw [Magnitude.ofRatio_of_le hden hexact ((Nat.div_le_self _ _).trans hle), Nat.ceil_natCast]
    omega
  · have hrest : (1 : ℚ) ≤ (n % 100 : Nat) ∧ ((n % 100 : Nat) : ℚ) ≤ 99 := by
      constructor <;> norm_cast <;> omega
    have hnum : 0 < num := by
      rw [Nat.pos_iff_ne_zero]
      rintro rfl
      rw [Nat.cast_zero, zero_div] at hvalue
      have : (0 : ℚ) ≤ (n / 100 : Nat) := by positivity
      linarith
    have hleq : (n : ℚ) ≤ 9007199254740992 := by exact_mod_cast hle
    obtain ⟨hlow, hhigh⟩ := binaryOrder_spec hnum hden
    rw [hn] at hlow hhigh
    -- a hundredth lies above `2 ^ (-7)` and a hundredth of `2 ^ 53` below `2 ^ 47`
    have hleast : -7 < binaryOrder num den + 1 := by
      refine (zpow_lt_zpow_iff_right₀ (one_lt_two (α := ℚ))).mp (lt_trans ?_ hhigh)
      have : (0 : ℚ) ≤ (n / 100 : Nat) := by positivity
      norm_num
      linarith
    have hmost : binaryOrder num den < 47 := by
      refine (zpow_lt_zpow_iff_right₀ (one_lt_two (α := ℚ))).mp (lt_of_le_of_lt hlow ?_)
      norm_num
      linarith
    have hstep : (2 : ℚ) ^ Magnitude.stepOf num den ≤ 2 ^ (-6 : ℤ) := by
      rw [Magnitude.stepOf_eq (by omega)]
      exact zpow_le_zpow_right₀ one_le_two (by omega)
    have herror := abs_le.mp (Magnitude.ofRatio_error hnum hden)
    rw [hvalue] at herror
    norm_num at hstep
    have hup : (n + 99) / 100 = n / 100 + 1 := by omega
    rw [hup, Nat.ceil_eq_iff (Nat.add_one_ne_zero _), Nat.add_sub_cancel]
    push_cast at herror ⊢
    constructor <;> linarith

/-- A natural number of 53 bits is kept. -/
theorem value_ofNat {n : Nat} (h : n ≤ 2 ^ precision) : (Magnitude.ofNat n).value = n :=
  Magnitude.ofRatio_of_le one_pos (by simp) h

/-- Factors of a product of 53 bits are kept, or one of them is zero and so is the product. -/
theorem value_factors {n ratio : Nat} (h : n * ratio ≤ 2 ^ precision) :
    (Magnitude.ofNat n).value * (Magnitude.ofNat ratio).value = (n * ratio : Nat) := by
  rcases Nat.eq_zero_or_pos n with rfl | hn
  · simp [value_ofNat]
  · rcases Nat.eq_zero_or_pos ratio with rfl | hratio
    · simp [value_ofNat]
    · rw [value_ofNat ((Nat.le_mul_of_pos_right n hratio).trans h),
        value_ofNat ((Nat.le_mul_of_pos_left ratio hn).trans h), Nat.cast_mul]

theorem value_hundred : hundred.value = 100 :=
  value_ofNat (n := 100) (by norm_num [precision])

theorem num_hundred_pos : 0 < hundred.num := by
  rw [Nat.pos_iff_ne_zero]
  intro hzero
  have hvalue := value_hundred
  rw [Magnitude.value_eq, hzero] at hvalue
  norm_num at hvalue

/-- **The share of a variant** is the exact one, rounded up, where the product has 53 bits. -/
theorem count_exact {n ratio : Nat} (h : n * ratio ≤ 2 ^ precision) :
    count n ratio = (n * ratio + 99) / 100 := by
  have hproduct : ((Magnitude.ofNat n).mul (.ofNat ratio)).value = (n * ratio : Nat) := by
    refine Magnitude.ofRatio_of_le (Nat.mul_pos (Magnitude.den_pos _) (Magnitude.den_pos _)) ?_ h
    rw [Magnitude.value_mul_value, value_factors h]
  have hquotient : (((Magnitude.ofNat n).mul (.ofNat ratio)).div hundred).ceil =
      (n * ratio + 99) / 100 := by
    refine ceil_hundredth (Nat.mul_pos (Magnitude.den_pos _) num_hundred_pos) ?_ h
    rw [Magnitude.value_div_value, hproduct, value_hundred]
  rw [count, hquotient, min_eq_right]
  simp only [precision] at h
  simp only [limit]
  omega

/-- Where the share meant for the last of some variants ends, when `taken` members are meant for
variants before. -/
def meant (n taken : Nat) (ratios : List Nat) : Nat :=
  ratios.foldl (fun taken ratio => add taken (count n ratio)) taken

theorem le_add {taken : Nat} (htaken : taken ≤ limit) (k : Nat) : taken ≤ add taken k := by
  simp only [add]
  omega

theorem add_le_limit (taken k : Nat) : add taken k ≤ limit :=
  min_le_left _ _

/-- Shares add up, until the greatest count is reached. -/
theorem meant_eq {n taken : Nat} {ratios : List Nat} (htaken : taken ≤ limit) :
    meant n taken ratios = min limit (taken + (ratios.map (count n)).sum) := by
  induction ratios generalizing taken with
  | nil => simpa [meant] using htaken
  | cons ratio rest ih =>
      show meant n (add taken (count n ratio)) rest = _
      rw [ih (add_le_limit _ _), List.map_cons, List.sum_cons, add]
      omega

theorem le_meant {n taken : Nat} {ratios : List Nat} (htaken : taken ≤ limit) :
    taken ≤ meant n taken ratios := by
  rw [meant_eq htaken]
  omega

/-- Consecutive slices join. -/
theorem slice_append {α : Type} (audience : List α) {i j k : Nat} (hij : i ≤ j) (hjk : j ≤ k) :
    slice audience (i, j) ++ slice audience (j, k) = slice audience (i, k) := by
  have hsplit : k - i = (j - i) + (k - j) := by omega
  have hdrop : audience.drop j = (audience.drop i).drop (j - i) := by
    rw [List.drop_drop]
    congr 1
    omega
  rw [slice, slice, slice, hsplit, List.take_add, hdrop]

/-- The buckets from a place on are one slice of the audience. -/
theorem flatten_spansFrom {α : Type} (audience : List α) (ratios : List Nat) {taken : Nat}
    (htaken : taken ≤ limit) :
    ((spansFrom audience.length taken ratios).map (slice audience)).flatten =
      slice audience (min taken audience.length,
        min audience.length (meant audience.length taken ratios)) := by
  induction ratios generalizing taken with
  | nil => simp [spansFrom, meant, slice, min_comm]
  | cons ratio rest ih =>
      have hnext : taken ≤ add taken (count audience.length ratio) := le_add htaken _
      have hrest : add taken (count audience.length ratio) ≤
          meant audience.length (add taken (count audience.length ratio)) rest :=
        le_meant (add_le_limit _ _)
      rw [spansFrom, List.map_cons, List.flatten_cons, ih (add_le_limit _ _),
        min_comm (add taken _), slice_append audience (by omega) (by omega)]
      rfl

/-- **The buckets together are the beginning of the audience.** -/
theorem flatten_partition {α : Type} (audience : List α) (ratios : List Nat) :
    (partition audience ratios).flatten = audience.take (meant audience.length 0 ratios) := by
  rw [partition, spans, flatten_spansFrom audience ratios (Nat.zero_le _), slice]
  simp [List.take_eq_take_iff, min_comm]

@[simp] theorem length_partition {α : Type} (audience : List α) (ratios : List Nat) :
    (partition audience ratios).length = ratios.length := by
  have hspans : ∀ taken, (spansFrom audience.length taken ratios).length = ratios.length := by
    induction ratios with
    | nil => simp [spansFrom]
    | cons ratio rest ih => simp [spansFrom, ih]
  simp [partition, spans, hspans]

/-- Exact shares are never too small. -/
theorem le_sum_count {n : Nat} {ratios : List Nat}
    (h : ∀ ratio ∈ ratios, n * ratio ≤ 2 ^ precision) :
    n * ratios.sum ≤ 100 * (ratios.map (count n)).sum := by
  induction ratios with
  | nil => simp
  | cons ratio rest ih =>
      have hrest := ih fun r hr => h r (List.mem_cons_of_mem _ hr)
      have hfirst := count_exact (h ratio List.mem_cons_self)
      rw [List.map_cons, List.sum_cons, List.sum_cons, hfirst, Nat.mul_add, Nat.mul_add]
      omega

/-- **Buckets cover the audience** where the ratios come to a hundred. -/
theorem partition_covers {α : Type} {audience : List α} {ratios : List Nat}
    (hsum : 100 ≤ ratios.sum) (h : ∀ ratio ∈ ratios, audience.length * ratio ≤ 2 ^ precision) :
    (partition audience ratios).flatten = audience := by
  have henough : audience.length * 100 ≤ 100 * (ratios.map (count audience.length)).sum :=
    (Nat.mul_le_mul_left _ hsum).trans (le_sum_count h)
  have hsmall : audience.length ≤ limit := by
    obtain ⟨ratio, hratio, hpos⟩ : ∃ ratio ∈ ratios, 0 < ratio := by
      by_contra hnone
      push Not at hnone
      have : ratios.sum = 0 := List.sum_eq_zero fun r hr => Nat.le_zero.mp (hnone r hr)
      omega
    have hprecise : 2 ^ precision ≤ limit := by decide
    exact (Nat.le_mul_of_pos_right _ hpos).trans ((h ratio hratio).trans hprecise)
  rw [flatten_partition, List.take_of_length_le]
  rw [meant_eq (Nat.zero_le _)]
  omega

/-! ### Where each bucket lies -/

/-- The members meant for the variants before place `i`, as far as counts go. -/
def before (n : Nat) (ratios : List Nat) (i : Nat) : Nat :=
  min limit ((ratios.take i).map (count n)).sum

theorem meant_take (n : Nat) (ratios : List Nat) (i : Nat) :
    meant n 0 (ratios.take i) = before n ratios i := by
  rw [meant_eq (Nat.zero_le _), Nat.zero_add, before]

/-- No span ends before it starts, or past the end. -/
theorem span_le {n taken : Nat} {ratios : List Nat} (htaken : taken ≤ limit) {span : Nat × Nat}
    (h : span ∈ spansFrom n taken ratios) : span.1 ≤ span.2 ∧ span.2 ≤ n := by
  induction ratios generalizing taken with
  | nil => cases h
  | cons ratio rest ih =>
      rcases List.mem_cons.mp h with rfl | h
      · have hnext : taken ≤ add taken (count n ratio) := le_add htaken _
        exact ⟨le_min (min_le_right _ _) ((min_le_left _ _).trans hnext), min_le_left _ _⟩
      · exact ih (add_le_limit _ _) h

theorem spansFrom_cons (n taken ratio : Nat) (rest : List Nat) :
    spansFrom n taken (ratio :: rest) = (min taken n, min n (add taken (count n ratio))) ::
      spansFrom n (add taken (count n ratio)) rest := rfl

theorem meant_cons (n taken ratio : Nat) (rest : List Nat) :
    meant n taken (ratio :: rest) = meant n (add taken (count n ratio)) rest := rfl

/-- A span lies between the shares before it and those with its own. -/
theorem getElem?_spansFrom (n taken : Nat) {ratios : List Nat} {i : Nat} (hi : i < ratios.length) :
    (spansFrom n taken ratios)[i]? =
      some (min n (meant n taken (ratios.take i)), min n (meant n taken (ratios.take (i + 1)))) := by
  induction ratios generalizing taken i with
  | nil => cases hi
  | cons ratio rest ih =>
      cases i with
      | zero =>
          rw [spansFrom_cons, List.getElem?_cons_zero, List.take_zero, List.take_succ_cons,
            List.take_zero, meant_cons, min_comm taken, meant, meant, List.foldl_nil, List.foldl_nil]
      | succ i =>
          rw [spansFrom_cons, List.getElem?_cons_succ, ih _ (Nat.lt_of_succ_lt_succ hi),
            List.take_succ_cons, List.take_succ_cons, meant_cons, meant_cons]

theorem getElem?_partition {α : Type} (audience : List α) {ratios : List Nat} {i : Nat}
    (hi : i < ratios.length) : (partition audience ratios)[i]? =
      some (audience.extract (min audience.length (before audience.length ratios i))
        (min audience.length (before audience.length ratios (i + 1)))) := by
  rw [partition, spans, List.getElem?_map, getElem?_spansFrom _ _ hi, meant_take, meant_take]
  rfl

/-- **Buckets are consecutive stretches of the audience.**  There is one for each ratio, cut where
the shares of the ratios before it end and where its own ends, both moved back to the end of the
audience if they lie past it; so no cut is out of range.  Together, in order, they are the beginning
of the audience, and all of it where ratios come to a hundred and products have 53 bits. -/
theorem partition_layout {α : Type} (audience : List α) (ratios : List Nat) :
    (partition audience ratios).length = ratios.length ∧
      (∀ span ∈ spans audience.length ratios, span.1 ≤ span.2 ∧ span.2 ≤ audience.length) ∧
      (partition audience ratios).flatten <+: audience ∧
      (∀ i < ratios.length, (partition audience ratios)[i]? =
        some (audience.extract (min audience.length (before audience.length ratios i))
          (min audience.length (before audience.length ratios (i + 1))))) ∧
      (100 ≤ ratios.sum → (∀ ratio ∈ ratios, audience.length * ratio ≤ 2 ^ 53) →
        (partition audience ratios).flatten = audience) := by
  refine ⟨length_partition _ _, fun span hspan => span_le (Nat.zero_le _) hspan, ?_,
    fun i hi => getElem?_partition _ hi, fun hsum hproducts => partition_covers hsum ?_⟩
  · rw [flatten_partition]
    exact List.take_prefix _ _
  · rwa [precision]

/-- Five members in the ratio 50 to 50 to 50: the third bucket would start past the end. -/
theorem partition_layout_of_five :
    partition [1, 2, 3, 4, 5] [50, 50, 50] = [[1, 2, 3], [4, 5], []] ∧
      (partition [1, 2, 3, 4, 5] [50, 50, 50])[1]? = some ([1, 2, 3, 4, 5].extract 3 5) ∧
      (partition [1, 2, 3, 4, 5] [50, 50, 50]).flatten = [1, 2, 3, 4, 5] := by
  obtain ⟨-, -, -, hbuckets, hcovers⟩ := partition_layout [1, 2, 3, 4, 5] [50, 50, 50]
  have hsecond := hbuckets 1 (by decide)
  have hstart : before 5 [50, 50, 50] 1 = 3 := by decide +kernel
  have hstop : before 5 [50, 50, 50] 2 = 6 := by decide +kernel
  refine ⟨by decide +kernel, ?_, hcovers (by decide) (by decide)⟩
  simpa [hstart, hstop] using hsecond

end Mailshot.Share
